import Mathlib.Algebra.Order.Ring.Nat
import RethGnosis.Library.Floor

set_option autoImplicit false

/-!
# Maps built from a list of entries

A map filled by inserting the entries of a list in order holds for each key the value of
its last entry; the entry in force at `n` is the last one with the greatest key up to `n`.
The entries themselves are read one after the other, and one that cannot be read fails them
all.
-/
namespace Entries
open Floor

section Read
variable {ι α : Type} (read : ι → Option α)

def readAll : List ι → Option (List α)
  | [] => some []
  | e :: rest => (read e).bind (fun a => (readAll rest).map (fun l => a :: l))

variable {read} {l : List ι}

theorem readAll_cons (e : ι) :
    readAll read (e :: l) = (read e).bind (fun a => (readAll read l).map (fun out => a :: out)) :=
  rfl

theorem readAll_eq_some_iff {out : List α} :
    readAll read l = some out ↔ (∀ e ∈ l, ∃ a, read e = some a) ∧ out = l.filterMap read := by
  induction l generalizing out with
  | nil => simp [readAll, eq_comm]
  | cons e l ih =>
    cases hread : read e with
    | none =>
      rw [readAll_cons, hread]
      simp [hread]
    | some a =>
      rw [readAll_cons, hread, Option.bind_some, Option.map_eq_some_iff,
        List.filterMap_cons_some hread]
      constructor
      · rintro ⟨rest, hrest, rfl⟩
        obtain ⟨hall, rfl⟩ := ih.mp hrest
        exact ⟨List.forall_mem_cons.mpr ⟨⟨a, hread⟩, hall⟩, rfl⟩
      · rintro ⟨hall, rfl⟩
        exact ⟨_, ih.mpr ⟨(List.forall_mem_cons.mp hall).2, rfl⟩, rfl⟩

theorem readAll_map {κ : Type} {write : κ → ι} {f : κ → α} (keys : List κ)
    (h : ∀ k ∈ keys, read (write k) = some (f k)) :
    readAll read (keys.map write) = some (keys.map f) := by
  induction keys with
  | nil => rfl
  | cons k keys ih =>
    have hrest := ih (fun j hj => h j (List.mem_cons_of_mem k hj))
    rw [List.map_cons, readAll_cons, h k List.mem_cons_self, Option.bind_some, hrest]
    rfl

end Read

section Last
variable {κ α β : Type} [DecidableEq κ]

def lastOf (l : List (κ × α)) (k : κ) : Option α :=
  (l.filter (fun e => e.1 = k)).getLast?.map Prod.snd

theorem lastOf_append_singleton (l : List (κ × α)) (e : κ × α) (k : κ) :
    lastOf (l ++ [e]) k = if e.1 = k then some e.2 else lastOf l k := by
  unfold lastOf
  rw [List.filter_append]
  by_cases h : e.1 = k
  · simp [h]
  · simp [h]

theorem lastOf_map (l : List (κ × α)) (f : α → β) (k : κ) :
    lastOf (l.map (fun e => (e.1, f e.2))) k = (lastOf l k).map f := by
  induction l using List.reverseRecOn with
  | nil => rfl
  | append_singleton l e ih =>
    rw [List.map_append, List.map_singleton, lastOf_append_singleton, lastOf_append_singleton, ih]
    split_ifs <;> rfl

theorem lastOf_eq_none_iff {l : List (κ × α)} {k : κ} :
    lastOf l k = none ↔ ∀ e ∈ l, e.1 ≠ k := by
  simp [lastOf]

theorem mem_of_lastOf {l : List (κ × α)} {k : κ} {a : α} (h : lastOf l k = some a) :
    (k, a) ∈ l := by
  obtain ⟨⟨j, b⟩, hlast, rfl⟩ := Option.map_eq_some_iff.mp h
  have hmem := List.mem_of_getLast? hlast
  rw [List.mem_filter, decide_eq_true_eq] at hmem
  rw [← hmem.2]
  exact hmem.1

theorem lastOf_append (l rest : List (κ × α)) (k : κ) :
    lastOf (l ++ rest) k = (lastOf rest k).or (lastOf l k) := by
  induction rest using List.reverseRecOn with
  | nil => simp [lastOf]
  | append_singleton rest e ih =>
    rw [← List.append_assoc, lastOf_append_singleton, lastOf_append_singleton, ih]
    split_ifs <;> rfl

end Last

section Map
variable {κ α β : Type} [Ord κ] [Std.TransOrd κ]

def insertAll (l : List (κ × α)) (m : BTreeMap κ α) : BTreeMap κ α :=
  l.foldl (fun m e => m.insert e.1 e.2) m

theorem insertAll_append_singleton (l : List (κ × α)) (e : κ × α) (m : BTreeMap κ α) :
    insertAll (l ++ [e]) m = (insertAll l m).insert e.1 e.2 := List.foldl_append

theorem isEmpty_insertAll (l : List (κ × α)) : (insertAll l ∅).isEmpty = l.isEmpty := by
  induction l using List.reverseRecOn with
  | nil => simp [insertAll]
  | append_singleton l e ih =>
    rw [insertAll_append_singleton, Std.ExtTreeMap.isEmpty_eq_false_iff.mpr
      Std.ExtTreeMap.insert_ne_empty]
    simp

variable [Std.LawfulEqOrd κ] [DecidableEq κ]

theorem getElem?_insertAll (l : List (κ × α)) (m : BTreeMap κ α) (k : κ) :
    (insertAll l m)[k]? = (lastOf l k).or m[k]? := by
  induction l using List.reverseRecOn with
  | nil => rfl
  | append_singleton l e ih =>
    rw [insertAll_append_singleton, lastOf_append_singleton, Std.ExtTreeMap.getElem?_insert]
    by_cases h : e.1 = k
    · simp [h]
    · simp [h, ih]

theorem getElem?_insertAll_empty (l : List (κ × α)) (k : κ) :
    (insertAll l ∅)[k]? = lastOf l k := by
  rw [getElem?_insertAll, Std.ExtTreeMap.getElem?_empty, Option.or_none]

theorem lastOf_toList (m : BTreeMap κ α) (k : κ) : lastOf m.toList k = m[k]? := by
  cases hget : m[k]? with
  | none =>
    rw [lastOf_eq_none_iff]
    rintro ⟨j, a⟩ hmem rfl
    rw [Std.ExtTreeMap.mem_toList_iff_getElem?_eq_some, hget] at hmem
    contradiction
  | some a =>
    have hmem := Std.ExtTreeMap.mem_toList_iff_getElem?_eq_some.mpr hget
    cases hlast : lastOf m.toList k with
    | none => exact absurd rfl (lastOf_eq_none_iff.mp hlast (k, a) hmem)
    | some b =>
      have hb := Std.ExtTreeMap.mem_toList_iff_getElem?_eq_some.mp (mem_of_lastOf hlast)
      rw [← hb, hget]

theorem insertAll_toList (m : BTreeMap κ α) : insertAll m.toList ∅ = m := by
  refine Std.ExtTreeMap.ext_getElem? ?_
  intro k
  rw [getElem?_insertAll_empty, lastOf_toList]

theorem getElem?_insertAll_toList (m : BTreeMap κ α) (f : α → β) (k : κ) :
    (insertAll (m.toList.map (fun e => (e.1, f e.2))) ∅)[k]? = m[k]?.map f := by
  rw [getElem?_insertAll_empty, lastOf_map, lastOf_toList]

end Map

section Latest
variable {α : Type} {l : List (ℕ × α)} {n : ℕ}

/-- The last entry under the greatest key up to `n`. -/
def Latest (l : List (ℕ × α)) (n : ℕ) (value : α) : Prop :=
  ∃ k ≤ n, lastOf l k = some value ∧ ∀ e ∈ l, e.1 ≤ n → e.1 ≤ k

theorem latest_iff_inForce {value : α} :
    Latest l n value ↔ ∃ k, InForce (insertAll l ∅) n k value := by
  unfold Latest InForce
  simp only [getElem?_insertAll_empty, lastOf_eq_none_iff]
  constructor
  · rintro ⟨k, hk, hlast, hgreatest⟩
    refine ⟨k, hlast, hk, ?_⟩
    intro j hkj hjn e he hej
    have hle := hgreatest e he (by omega)
    omega
  · rintro ⟨k, hlast, hk, hlater⟩
    refine ⟨k, hk, hlast, ?_⟩
    intro e he hen
    by_contra hlt
    exact hlater e.1 (by omega) hen e he rfl

theorem floor_insertAll_eq_some_iff {value : α} :
    (floor (insertAll l ∅).toList n).map Prod.snd = some value ↔ Latest l n value := by
  rw [latest_iff_inForce, Option.map_eq_some_iff]
  constructor
  · rintro ⟨⟨k, v⟩, hfloor, rfl⟩
    exact ⟨k, floor_toList_eq_some_iff.mp hfloor⟩
  · rintro ⟨k, hforce⟩
    exact ⟨(k, value), floor_toList_eq_some_iff.mpr hforce, rfl⟩

end Latest

end Entries
