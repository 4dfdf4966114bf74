import Mathlib.Algebra.Order.Ring.Nat
import Mathlib.Algebra.Order.Ring.Int
import Mathlib.Data.Int.Cast.Lemmas

set_option autoImplicit false

/-!
# Net metering of storage writes

A schedule prices a write by the slot's value before the transaction, its current value
and the new one. Cost less refund is a flat price for each write plus the change of a
potential, and what was refunded covers what can still be taken back, so sums over any
sequence of writes depend only on its length and its ends.
-/
namespace NetMetering

/-- Prices of a write that changes nothing yet unpaid, of one that fills an empty slot and of one
that changes a full one, and the refund for emptying a slot. -/
structure Schedule where
  noop : ℕ
  set : ℕ
  reset : ℕ
  clear : ℕ
  noop_le_set : noop ≤ set
  noop_le_reset : noop ≤ reset

variable {α : Type} [Zero α] [DecidableEq α] (p : Schedule) (original : α)

def cost (current new : α) : ℕ :=
  if current = new then p.noop
  else if original = current then
    if original = 0 then p.set else p.reset
  else p.noop

def clearRefund (current new : α) : ℤ :=
  if original = 0 then 0
  else if current = 0 then -p.clear
  else if new = 0 then p.clear
  else 0

/-- What is given back for a slot that has its original value again. -/
def restoreRefund (new : α) : ℤ :=
  if original = new then
    if original = 0 then p.set - p.noop else p.reset - p.noop
  else 0

def refund (current new : α) : ℤ :=
  if current = new then 0
  else if original = current then
    if original ≠ 0 ∧ new = 0 then p.clear else 0
  else clearRefund p original current new + restoreRefund p original new

/-- Price of all writes beyond the flat one, by the last value. -/
def net (last : α) : ℤ :=
  if last = original then 0
  else if original = 0 then p.set - p.noop
  else if last = 0 then p.reset - p.noop - p.clear
  else p.reset - p.noop

def held (current : α) : ℤ := if original ≠ 0 ∧ current = 0 then p.clear else 0

/-- What has been paid for a change and is given back when the original value returns. -/
def unrestored (current : α) : ℤ :=
  if current = original then 0
  else if original = 0 then p.set - p.noop
  else p.reset - p.noop

section Write
variable {p original} {current new : α}

theorem held_original : held p original original = 0 := if_neg (fun h => h.1 h.2)

theorem unrestored_original : unrestored p original original = 0 := if_pos rfl

theorem held_nonneg : 0 ≤ held p original current := by
  unfold held
  split_ifs <;> omega

theorem net_eq :
    net p original current = unrestored p original current - held p original current := by
  by_cases hclean : current = original
  · rw [hclean, held_original, unrestored_original, net, if_pos rfl, Int.sub_zero]
  · unfold net unrestored held
    by_cases ho : original = 0
    · simp [ho]
    · by_cases hc : current = 0
      · simp [ho, hc, Ne.symm ho]
      · simp [hclean, ho, hc]

theorem clearRefund_eq (h : current ≠ new) :
    clearRefund p original current new = held p original new - held p original current := by
  unfold clearRefund held
  by_cases ho : original = 0
  · simp [ho]
  · by_cases hc : current = 0
    · have hn : new ≠ 0 := fun hn => h (hc.trans hn.symm)
      simp [ho, hc, hn]
    · by_cases hn : new = 0
      · simp [ho, hc, hn]
      · simp [ho, hc, hn]

theorem restoreRefund_eq (h : original ≠ current) :
    restoreRefund p original new =
      unrestored p original current - unrestored p original new := by
  unfold restoreRefund unrestored
  rw [if_neg (Ne.symm h)]
  by_cases hn : original = new
  · simp [hn]
  · simp [hn, Ne.symm hn]

theorem clean_write (h : original ≠ new) :
    (cost p original original new : ℤ) = p.noop + unrestored p original new ∧
      refund p original original new = held p original new := by
  unfold cost unrestored refund held
  constructor
  · rw [if_neg h, if_pos rfl, if_neg (Ne.symm h)]
    split_ifs <;> omega
  · rw [if_neg h, if_pos rfl]

theorem dirty_write (hdirty : original ≠ current) (h : current ≠ new) :
    cost p original current new = p.noop ∧
      refund p original current new =
        held p original new - held p original current +
          (unrestored p original current - unrestored p original new) := by
  constructor
  · rw [cost, if_neg h, if_neg hdirty]
  · rw [refund, if_neg h, if_neg hdirty, clearRefund_eq h, restoreRefund_eq hdirty]

theorem cost_sub_refund :
    (cost p original current new : ℤ) - refund p original current new =
      p.noop + (net p original new - net p original current) := by
  rw [net_eq, net_eq]
  by_cases hsame : current = new
  · rw [cost, refund, if_pos hsame, if_pos hsame, hsame]
    omega
  · by_cases hclean : original = current
    · subst hclean
      obtain ⟨hcost, hrefund⟩ := @clean_write α _ _ p original new hsame
      rw [hcost, hrefund, held_original, unrestored_original]
      omega
    · obtain ⟨hcost, hrefund⟩ := @dirty_write α _ _ p original current new hclean hsame
      rw [hcost, hrefund]
      omega

theorem unrestored_le (h : original ≠ current) :
    unrestored p original new ≤ unrestored p original current := by
  have hset := p.noop_le_set
  have hreset := p.noop_le_reset
  unfold unrestored
  rw [if_neg (Ne.symm h)]
  split_ifs <;> omega

theorem held_le :
    held p original new ≤ refund p original current new + held p original current := by
  by_cases hsame : current = new
  · rw [refund, if_pos hsame, hsame, Int.zero_add]
  · by_cases hclean : original = current
    · subst hclean
      rw [(clean_write hsame).2, held_original, Int.add_zero]
    · have hle := @unrestored_le α _ _ p original current new hclean
      rw [(dirty_write hclean hsame).2]
      omega

end Write

section Sequence

def totalCost : α → List α → ℕ
  | _, [] => 0
  | current, new :: rest => cost p original current new + totalCost new rest

def totalRefund : α → List α → ℤ
  | _, [] => 0
  | current, new :: rest => refund p original current new + totalRefund new rest

variable {p original}

theorem totalCost_sub_totalRefund (current : α) (writes : List α) :
    (totalCost p original current writes : ℤ) - totalRefund p original current writes =
      p.noop * writes.length +
        (net p original (writes.getLastD current) - net p original current) := by
  induction writes generalizing current with
  | nil => simp [totalCost, totalRefund]
  | cons new rest ih =>
    have hfirst := @cost_sub_refund α _ _ p original current new
    have hrest := ih new
    rw [totalCost, totalRefund, List.getLastD_cons, List.length_cons, Int.natCast_add,
      Int.natCast_succ, Int.mul_add, Int.mul_one]
    omega

theorem held_last_le (current : α) (writes : List α) :
    held p original (writes.getLastD current) ≤
      totalRefund p original current writes + held p original current := by
  induction writes generalizing current with
  | nil => simp [totalRefund]
  | cons new rest ih =>
    have hfirst := @held_le α _ _ p original current new
    have hrest := ih new
    rw [totalRefund, List.getLastD_cons]
    omega

/-- From the original value on the refunds never fall below zero. -/
theorem totalRefund_nonneg (writes : List α) : 0 ≤ totalRefund p original original writes := by
  have hheld := @held_nonneg α _ _ p original (writes.getLastD original)
  have hlast := @held_last_le α _ _ p original original writes
  rw [held_original] at hlast
  omega

end Sequence

end NetMetering
