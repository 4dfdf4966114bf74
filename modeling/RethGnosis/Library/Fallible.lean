import Mathlib.Algebra.Order.Ring.Nat

set_option autoImplicit false

/-!
# Computations that keep their state when they fail

`EStateM` stops at the first error and hands on the state reached there: nothing is
rolled back. `Keeps f` says that a component of the state is left alone whichever
way the computation ends, `Ensures R` relates the states before and after it when it
succeeds. `Delivers` says that it does succeed.
-/
namespace Fallible

variable {ε σ α β γ : Type}

def final : EStateM.Result ε σ α → σ
  | .ok _ s => s
  | .error _ s => s

def failed : EStateM.Result ε σ α → Bool
  | .ok _ _ => false
  | .error _ _ => true

def value : EStateM.Result ε σ α → Option α
  | .ok a _ => some a
  | .error _ _ => none

theorem exists_error {r : EStateM.Result ε σ α} (h : failed r = true) :
    ∃ e t, r = .error e t ∧ t = final r := by
  cases r with
  | ok a t => contradiction
  | error e t => exact ⟨e, t, rfl, rfl⟩

theorem exists_ok {r : EStateM.Result ε σ α} (h : failed r = false) :
    ∃ a t, r = .ok a t ∧ t = final r := by
  cases r with
  | ok a t => exact ⟨a, t, rfl, rfl⟩
  | error e t => contradiction

def Keeps (f : σ → γ) (m : EStateM ε σ α) : Prop := ∀ s, f (final (m s)) = f s

def Ensures (R : σ → σ → Prop) (m : EStateM ε σ α) : Prop := ∀ s a t, m s = .ok a t → R s t

theorem bind_run (m : EStateM ε σ α) (f : α → EStateM ε σ β) (s : σ) :
    (m >>= f) s =
      match m s with
      | .ok a t => f a t
      | .error e t => .error e t := rfl

theorem get_bind_run (f : σ → EStateM ε σ β) (s : σ) :
    ((get : EStateM ε σ σ) >>= f) s = f s s := rfl

theorem bind_ok {m : EStateM ε σ α} {f : α → EStateM ε σ β} {s : σ} {b : β} {t : σ} :
    (m >>= f) s = .ok b t ↔ ∃ a u, m s = .ok a u ∧ f a u = .ok b t := by
  rw [bind_run]
  cases m s <;> simp [and_assoc]

theorem bind_error {m : EStateM ε σ α} {f : α → EStateM ε σ β} {s : σ} {e : ε} {t : σ} :
    (m >>= f) s = .error e t ↔
      m s = .error e t ∨ ∃ a u, m s = .ok a u ∧ f a u = .error e t := by
  rw [bind_run]
  cases m s <;> simp [and_assoc]

theorem final_bind_ok {m : EStateM ε σ α} {s : σ} {a : α} {t : σ} (h : m s = .ok a t)
    (f : α → EStateM ε σ β) : final ((m >>= f) s) = final (f a t) := by
  rw [bind_run, h]

theorem final_bind_error {m : EStateM ε σ α} {s : σ} {e : ε} {t : σ} (h : m s = .error e t)
    (f : α → EStateM ε σ β) : final ((m >>= f) s) = t := by
  rw [bind_run, h]
  rfl

theorem final_bind_pure (m : EStateM ε σ α) (b : β) (s : σ) :
    final ((m >>= fun _ => pure b) s) = final (m s) := by
  rw [bind_run]
  cases m s <;> rfl

section Keeps
variable {f : σ → γ}

theorem Keeps.ok {m : EStateM ε σ α} (h : Keeps f m) {s t : σ} {a : α} (hrun : m s = .ok a t) :
    f t = f s := by
  have hs := h s
  rwa [hrun] at hs

theorem Keeps.error {m : EStateM ε σ α} (h : Keeps f m) {s t : σ} {e : ε}
    (hrun : m s = .error e t) : f t = f s := by
  have hs := h s
  rwa [hrun] at hs

theorem keeps_pure (a : α) : Keeps f (pure a : EStateM ε σ α) := fun _ => rfl

theorem keeps_throw (e : ε) : Keeps f (throw e : EStateM ε σ α) := fun _ => rfl

theorem keeps_get : Keeps f (get : EStateM ε σ σ) := fun _ => rfl

theorem Keeps.bind {m : EStateM ε σ α} {g : α → EStateM ε σ β} (hm : Keeps f m)
    (hg : ∀ a, Keeps f (g a)) : Keeps f (m >>= g) := by
  intro s
  rw [bind_run]
  cases h : m s with
  | ok a t => exact (hg a t).trans (hm.ok h)
  | error e t => exact hm.error h

theorem Keeps.adaptExcept {ψ : Type} {m : EStateM ε σ α} (h : Keeps f m) (g : ε → ψ) :
    Keeps f (EStateM.adaptExcept g m) := by
  intro s
  have hs := h s
  unfold EStateM.adaptExcept
  cases hrun : m s <;> rw [hrun] at hs <;> exact hs

theorem Keeps.forM {ι : Type} {g : ι → EStateM ε σ PUnit} (hg : ∀ x, Keeps f (g x))
    (xs : List ι) : Keeps f (xs.forM g) := by
  induction xs with
  | nil => exact keeps_pure PUnit.unit
  | cons x rest ih => exact (hg x).bind (fun _ => ih)

end Keeps

section Ensures
variable {R : σ → σ → Prop}

theorem ensures_pure (hrefl : ∀ s, R s s) (a : α) : Ensures R (pure a : EStateM ε σ α) := by
  intro s b t hrun
  cases hrun
  exact hrefl s

theorem ensures_throw (e : ε) : Ensures R (throw e : EStateM ε σ α) := by
  intro s b t hrun
  cases hrun

theorem Ensures.bind (htrans : ∀ s t u, R s t → R t u → R s u) {m : EStateM ε σ α}
    {f : α → EStateM ε σ β} (hm : Ensures R m) (hf : ∀ a, Ensures R (f a)) :
    Ensures R (m >>= f) := by
  intro s b t hrun
  obtain ⟨a, u, hfirst, hsecond⟩ := bind_ok.mp hrun
  exact htrans s u t (hm s a u hfirst) (hf a u b t hsecond)

theorem Ensures.adaptExcept {ψ : Type} {m : EStateM ε σ α} (h : Ensures R m) (g : ε → ψ) :
    Ensures R (EStateM.adaptExcept g m) := by
  intro s a t hrun
  unfold EStateM.adaptExcept at hrun
  cases hm : m s with
  | error e u =>
    rw [hm] at hrun
    cases hrun
  | ok b u =>
    rw [hm] at hrun
    cases hrun
    exact h s a t hm

theorem Ensures.forM (hrefl : ∀ s, R s s) (htrans : ∀ s t u, R s t → R t u → R s u) {ι : Type}
    {f : ι → EStateM ε σ PUnit} (hf : ∀ x, Ensures R (f x)) (xs : List ι) :
    Ensures R (xs.forM f) := by
  induction xs with
  | nil => exact ensures_pure hrefl PUnit.unit
  | cons x rest ih => exact (hf x).bind htrans (fun _ => ih)

end Ensures

section Delivers
variable {s : σ}

/-- From `s` the computation succeeds, with a value and a state as `Q` says. -/
def Delivers (m : EStateM ε σ α) (s : σ) (Q : α → σ → Prop) : Prop :=
  ∃ a t, m s = .ok a t ∧ Q a t

theorem Delivers.mono {m : EStateM ε σ α} {P Q : α → σ → Prop} (h : Delivers m s P)
    (himp : ∀ a t, P a t → Q a t) : Delivers m s Q := by
  obtain ⟨a, t, hrun, hP⟩ := h
  exact ⟨a, t, hrun, himp a t hP⟩

theorem delivers_pure {a : α} {Q : α → σ → Prop} (h : Q a s) :
    Delivers (pure a : EStateM ε σ α) s Q :=
  ⟨a, s, rfl, h⟩

theorem delivers_get_bind {f : σ → EStateM ε σ β} {Q : β → σ → Prop} (h : Delivers (f s) s Q) :
    Delivers ((get : EStateM ε σ σ) >>= f) s Q := h

theorem Delivers.bind {m : EStateM ε σ α} {f : α → EStateM ε σ β} {P : α → σ → Prop}
    {Q : β → σ → Prop} (h : Delivers m s P) (hf : ∀ a t, P a t → Delivers (f a) t Q) :
    Delivers (m >>= f) s Q := by
  obtain ⟨a, t, hrun, hP⟩ := h
  obtain ⟨b, u, hrest, hQ⟩ := hf a t hP
  exact ⟨b, u, bind_ok.mpr ⟨a, t, hrun, hrest⟩, hQ⟩

theorem Delivers.adaptExcept {ψ : Type} {m : EStateM ε σ α} {Q : α → σ → Prop}
    (h : Delivers m s Q) (g : ε → ψ) : Delivers (EStateM.adaptExcept g m) s Q := by
  obtain ⟨a, t, hrun, hQ⟩ := h
  refine ⟨a, t, ?_, hQ⟩
  unfold EStateM.adaptExcept
  rw [hrun]

end Delivers

end Fallible
