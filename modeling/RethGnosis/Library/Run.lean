import Mathlib.Algebra.Order.Ring.Nat
import Mathlib.Order.Basic

set_option autoImplicit false

/-!
# Runs of a deterministic step function

`run step inputs s` feeds the inputs to `step` one by one, and `visits` lists
each input with the state it is fed to. The rules turn facts about one step into
facts about whole runs: an invariant, a guarded invariant, and a simulation
between two runs over the same inputs.
-/
namespace Run

variable {ι σ τ : Type} (step : ι → σ → σ)

def run : List ι → σ → σ
  | [], s => s
  | i :: rest, s => run rest (step i s)

def visits : List ι → σ → List (ι × σ)
  | [], _ => []
  | i :: rest, s => (i, s) :: visits rest (step i s)

variable {step}

theorem run_append (xs ys : List ι) (s : σ) :
    run step (xs ++ ys) s = run step ys (run step xs s) := by
  induction xs generalizing s with
  | nil => rfl
  | cons i rest ih => exact ih (step i s)

theorem visits_append (xs ys : List ι) (s : σ) :
    visits step (xs ++ ys) s = visits step xs s ++ visits step ys (run step xs s) := by
  induction xs generalizing s with
  | nil => rfl
  | cons i rest ih => exact congrArg ((i, s) :: ·) (ih (step i s))

theorem visits_length (xs : List ι) (s : σ) : (visits step xs s).length = xs.length := by
  induction xs generalizing s with
  | nil => rfl
  | cons i rest ih => exact congrArg (· + 1) (ih (step i s))

theorem mem_visits_iff {xs : List ι} {s : σ} {v : ι × σ} :
    v ∈ visits step xs s ↔
      ∃ before after, xs = before ++ v.1 :: after ∧ v.2 = run step before s := by
  induction xs generalizing s with
  | nil => simp [visits]
  | cons i rest ih =>
    simp only [visits, List.mem_cons, ih]
    constructor
    · rintro (rfl | ⟨before, after, rfl, hs⟩)
      · exact ⟨[], rest, rfl, rfl⟩
      · exact ⟨i :: before, after, rfl, hs⟩
    · rintro ⟨before, after, heq, hs⟩
      cases before with
      | nil =>
        rw [List.nil_append, List.cons.injEq] at heq
        exact .inl (Prod.ext heq.1.symm hs)
      | cons j before =>
        rw [List.cons_append, List.cons.injEq] at heq
        obtain ⟨rfl, rfl⟩ := heq
        exact .inr ⟨before, after, rfl, hs⟩

/-- A run that a projection of its state commutes with is a run of the projected states. -/
theorem visits_map {step' : ι → τ → τ} (f : σ → τ)
    (hstep : ∀ i s, f (step i s) = step' i (f s)) (xs : List ι) (s : σ) :
    (visits step xs s).map (Prod.map id f) = visits step' xs (f s) := by
  induction xs generalizing s with
  | nil => rfl
  | cons i rest ih =>
    rw [visits, visits, List.map_cons, ih, hstep]
    rfl

/-- Steps that change nothing a projection of the state shows can be left out of the run of
the projected states. -/
theorem skip_idle {κ : Type} {step' : κ → τ → τ} (f : ι → Option κ) (g : σ → τ)
    (hstep : ∀ i k s, f i = some k → g (step i s) = step' k (g s)) {xs : List ι} {s : σ}
    (hidle : ∀ v ∈ visits step xs s, f v.1 = none → g (step v.1 v.2) = g v.2) :
    g (run step xs s) = run step' (xs.filterMap f) (g s) ∧
      (visits step xs s).filterMap (fun v => (f v.1).map (fun k => (k, g v.2))) =
        visits step' (xs.filterMap f) (g s) := by
  induction xs generalizing s with
  | nil => exact ⟨rfl, rfl⟩
  | cons i rest ih =>
    rw [visits, List.forall_mem_cons] at hidle
    obtain ⟨hrun, hvisits⟩ := ih hidle.2
    cases hi : f i with
    | none =>
      have hkeep : g (step i s) = g s := hidle.1 hi
      rw [List.filterMap_cons_none hi, run, hrun, hkeep, visits, List.filterMap_cons_none (by
        simp [hi]), hvisits, hkeep]
      exact ⟨rfl, rfl⟩
    | some k =>
      have hnext : g (step i s) = step' k (g s) := hstep i k s hi
      rw [List.filterMap_cons_some hi, run, hrun, hnext, visits, List.filterMap_cons_some (by
        rw [hi]; rfl), hvisits, hnext]
      exact ⟨rfl, rfl⟩

/-- Two runs whose states stay related give the same outputs if each step does. -/
theorem outputs_eq {γ : Type} {step' : ι → τ → τ} {R : σ → τ → Prop} {f : ι → σ → γ}
    {g : ι → τ → γ} {xs : List ι}
    (hstep : ∀ i ∈ xs, ∀ s t, R s t → f i s = g i t ∧ R (step i s) (step' i t)) {s : σ} {t : τ}
    (h : R s t) :
    (visits step xs s).map (fun v => f v.1 v.2) = (visits step' xs t).map (fun v => g v.1 v.2) := by
  induction xs generalizing s t with
  | nil => rfl
  | cons i rest ih =>
    rw [List.forall_mem_cons] at hstep
    obtain ⟨houtput, hnext⟩ := hstep.1 s t h
    rw [visits, visits, List.map_cons, List.map_cons, houtput, ih hstep.2 hnext]

/-- An invariant of the state and the inputs still to come holds at every visit and at the
end. -/
theorem invariant_remaining {I : List ι → σ → Prop}
    (hstep : ∀ i rest s, I (i :: rest) s → I rest (step i s)) {xs : List ι} {s : σ} (h : I xs s) :
    I [] (run step xs s) ∧ ∀ v ∈ visits step xs s, ∃ rest, I (v.1 :: rest) v.2 := by
  induction xs generalizing s with
  | nil => exact ⟨h, by simp [visits]⟩
  | cons i rest ih =>
    have htail := ih (hstep i rest s h)
    constructor
    · exact htail.1
    · intro v hv
      rcases List.mem_cons.mp hv with rfl | hv
      · exact ⟨rest, h⟩
      · exact htail.2 v hv

theorem invariant {I : σ → Prop} (hstep : ∀ i s, I s → I (step i s)) {xs : List ι} {s : σ}
    (h : I s) : I (run step xs s) ∧ ∀ v ∈ visits step xs s, I v.2 := by
  have hall := @invariant_remaining ι σ step (fun _ s => I s) (fun i _ s => hstep i s) xs s h
  constructor
  · exact hall.1
  · intro v hv
    exact (hall.2 v hv).choose_spec

theorem invariant_guarded {I : σ → Prop} {G : ι → σ → Prop}
    (hstep : ∀ i s, I s → G i s → I (step i s)) {xs : List ι} {s : σ} (h : I s)
    (hguard : ∀ v ∈ visits step xs s, G v.1 v.2) :
    I (run step xs s) ∧ ∀ v ∈ visits step xs s, I v.2 := by
  induction xs generalizing s with
  | nil => exact ⟨h, by simp [visits]⟩
  | cons i rest ih =>
    rw [visits, List.forall_mem_cons] at hguard
    obtain ⟨hend, hrest⟩ := ih (hstep i s h hguard.1) hguard.2
    rw [visits, List.forall_mem_cons]
    exact ⟨hend, h, hrest⟩

/-- Where one step keeps `I` exactly under the guard `G`, a run keeps `I` after every step
exactly when the guard holds at every visit. -/
theorem kept_iff_guarded {I : σ → Prop} {G : ι → σ → Prop} {A : List ι → σ → Prop}
    (hnext : ∀ i rest s, A (i :: rest) s → A rest (step i s))
    (hkeep : ∀ i rest s, A (i :: rest) s → I s → (I (step i s) ↔ G i s))
    {xs : List ι} {s : σ} (ha : A xs s) (hs : I s) :
    (∀ v ∈ visits step xs s, I (step v.1 v.2)) ↔ ∀ v ∈ visits step xs s, G v.1 v.2 := by
  induction xs generalizing s with
  | nil => simp [visits]
  | cons i rest ih =>
    simp only [visits, List.forall_mem_cons]
    have hfirst := hkeep i rest s ha hs
    constructor
    · rintro ⟨hi, hrest⟩
      exact ⟨hfirst.mp hi, (ih (hnext i rest s ha) hi).mp hrest⟩
    · rintro ⟨hg, hrest⟩
      have hi := hfirst.mpr hg
      exact ⟨hi, (ih (hnext i rest s ha) hi).mpr hrest⟩

end Run
