import RethGnosis.Library.Fallible

set_option autoImplicit false

/-!
# Programs that may be cut off

A program changes a store one operation at a time. A script says how each operation ends:
it goes through, it fails and says so, or the process stops in the middle of it. A failure
can be caught, a stop cannot. `Triple P p Q C` relates the store before the program to the
one it returns with, and says with `C` what holds wherever it ends otherwise. `Completes`
is about runs in which nothing goes wrong.
-/
namespace Crash

variable {ε ψ σ τ ι α β : Type}

/-- How an operation ends; `part` measures what it did before it failed or stopped. -/
inductive Event where
  | done
  | fails (part : ℕ)
  | stops (part : ℕ)
deriving DecidableEq

inductive Halt (ε : Type) where
  | failed (e : ε)
  | stopped
deriving DecidableEq

structure Scene (σ : Type) where
  store : σ
  script : ℕ → Event

abbrev Prog (ε σ α : Type) := EStateM (Halt ε) (Scene σ) α

def conclude (script : ℕ → Event) : Except ε α × σ → EStateM.Result (Halt ε) (Scene σ) α
  | (.ok a, s) => .ok a ⟨s, script⟩
  | (.error e, s) => .error (.failed e) ⟨s, script⟩

/-- One operation, given by what it does in each of the three cases. -/
def act (full : σ → Except ε α × σ) (fails : ℕ → σ → Except ε α × σ) (stops : ℕ → σ → σ) :
    Prog ε σ α := fun w =>
  let rest := fun n => w.script (n + 1)
  match w.script 0 with
  | .done => conclude rest (full w.store)
  | .fails k => conclude rest (fails k w.store)
  | .stops k => .error .stopped ⟨stops k w.store, rest⟩

def observe (ioError : ε) (f : σ → Except ε α) : Prog ε σ α :=
  act (fun s => (f s, s)) (fun _ s => (.error ioError, s)) (fun _ s => s)

def poll (ioError : ε) : Prog ε σ Unit := observe ioError (fun _ => .ok ())

def change (ioError : ε) (f : σ → Except ε σ) : Prog ε σ Unit :=
  act
    (fun s =>
      match f s with
      | .ok t => (.ok (), t)
      | .error e => (.error e, s))
    (fun _ s => (.error ioError, s)) (fun _ s => s)

def fail (e : ε) : Prog ε σ α := throw (.failed e)

/-- Goes on after a failure, as `.ok()` does. -/
def tolerate (p : Prog ε σ α) : Prog ε σ (Option α) := fun w =>
  match p w with
  | .ok a v => .ok (some a) v
  | .error (.failed _) v => .ok none v
  | .error .stopped v => .error .stopped v

def Halt.map (f : ε → ψ) : Halt ε → Halt ψ
  | .failed e => .failed (f e)
  | .stopped => .stopped

def mapError (f : ε → ψ) (p : Prog ε σ α) : Prog ψ σ α := EStateM.adaptExcept (Halt.map f) p

def zoom (get : τ → σ) (set : σ → τ → τ) (p : Prog ε σ α) : Prog ε τ α := fun w =>
  match p ⟨get w.store, w.script⟩ with
  | .ok a v => .ok a ⟨set v.store w.store, v.script⟩
  | .error e v => .error e ⟨set v.store w.store, v.script⟩

def Triple (P : σ → Prop) (p : Prog ε σ α) (Q : α → σ → Prop) (C : σ → Prop) : Prop :=
  ∀ w, P w.store →
    (∀ a v, p w = .ok a v → Q a v.store) ∧ (∀ e v, p w = .error e v → C v.store)

section Triple
variable {P P' : σ → Prop} {C C' : σ → Prop} {Q Q' : α → σ → Prop} {p : Prog ε σ α}

theorem Triple.mono (h : Triple P p Q C) (hpre : ∀ s, P' s → P s)
    (hpost : ∀ a s, Q a s → Q' a s) (hcrash : ∀ s, C s → C' s) : Triple P' p Q' C' := by
  intro w hw
  obtain ⟨hok, herr⟩ := h w (hpre w.store hw)
  exact ⟨fun a v hrun => hpost a v.store (hok a v hrun),
    fun e v hrun => hcrash v.store (herr e v hrun)⟩

theorem Triple.pre (h : Triple P p Q C) (hpre : ∀ s, P' s → P s) : Triple P' p Q C :=
  h.mono hpre (fun _ _ hq => hq) (fun _ hc => hc)

theorem Triple.post (h : Triple P p Q C) (hpost : ∀ a s, Q a s → Q' a s) : Triple P p Q' C :=
  h.mono (fun _ hp => hp) hpost (fun _ hc => hc)

/-- Facts that do not mention the store may be assumed while the program is looked at. -/
theorem Triple.given {R : Prop} (h : R → Triple P p Q C) :
    Triple (fun s => R ∧ P s) p Q C := fun w hw => h hw.1 w hw.2

theorem triple_exists {A : ι → σ → Prop} (h : ∀ i, Triple (A i) p Q C) :
    Triple (fun s => ∃ i, A i s) p Q C := by
  rintro w ⟨i, hi⟩
  exact h i w hi

theorem triple_pure {a : α} (h : ∀ s, P s → Q a s) : Triple P (pure a : Prog ε σ α) Q C := by
  intro w hw
  constructor
  · intro b v hrun
    cases hrun
    exact h w.store hw
  · intro e v hrun
    cases hrun

theorem triple_fail {e : ε} (h : ∀ s, P s → C s) : Triple P (fail e : Prog ε σ α) Q C := by
  intro w hw
  constructor
  · intro b v hrun
    cases hrun
  · intro e' v hrun
    cases hrun
    exact h w.store hw

theorem Triple.bind {R : β → σ → Prop} {f : α → Prog ε σ β} (h : Triple P p Q C)
    (hf : ∀ a, Triple (Q a) (f a) R C) : Triple P (p >>= f) R C := by
  intro w hw
  obtain ⟨hok, herr⟩ := h w hw
  constructor
  · intro b v hrun
    obtain ⟨a, u, hfirst, hsecond⟩ := Fallible.bind_ok.mp hrun
    exact (hf a u (hok a u hfirst)).1 b v hsecond
  · intro e v hrun
    rcases Fallible.bind_error.mp hrun with hfirst | ⟨a, u, hfirst, hsecond⟩
    · exact herr e v hfirst
    · exact (hf a u (hok a u hfirst)).2 e v hsecond

theorem triple_ite {b : Bool} {q : Prog ε σ α} (hthen : b = true → Triple P p Q C)
    (helse : b = false → Triple P q Q C) : Triple P (if b = true then p else q) Q C := by
  cases b with
  | true => exact hthen rfl
  | false => exact helse rfl

theorem conclude_ok {script : ℕ → Event} {r : Except ε α × σ} {a : α} {v : Scene σ}
    (h : conclude script r = .ok a v) : r = (.ok a, v.store) := by
  rcases r with ⟨_ | b, s⟩ <;> cases h
  rfl

theorem conclude_error {script : ℕ → Event} {r : Except ε α × σ} {e : Halt ε} {v : Scene σ}
    (h : conclude script r = .error e v) : ∃ e', r = (.error e', v.store) := by
  rcases r with ⟨e' | b, s⟩ <;> cases h
  exact ⟨e', rfl⟩

/-- An operation meets a triple when each of its three ends does. -/
theorem triple_act {full : σ → Except ε α × σ} {fails : ℕ → σ → Except ε α × σ}
    {stops : ℕ → σ → σ}
    (hok : ∀ s a t, P s → full s = (.ok a, t) ∨ (∃ k, fails k s = (.ok a, t)) → Q a t)
    (herr : ∀ s e t, P s → full s = (.error e, t) ∨ (∃ k, fails k s = (.error e, t)) → C t)
    (hstop : ∀ s k, P s → C (stops k s)) : Triple P (act full fails stops) Q C := by
  intro w hw
  unfold act
  cases hevent : w.script 0 with
  | done =>
    constructor
    · intro a v hrun
      exact hok w.store a v.store hw (.inl (conclude_ok hrun))
    · intro e v hrun
      obtain ⟨e', hfull⟩ := conclude_error hrun
      exact herr w.store e' v.store hw (.inl hfull)
  | fails k =>
    constructor
    · intro a v hrun
      exact hok w.store a v.store hw (.inr ⟨k, conclude_ok hrun⟩)
    · intro e v hrun
      obtain ⟨e', hfails⟩ := conclude_error hrun
      exact herr w.store e' v.store hw (.inr ⟨k, hfails⟩)
  | stops k =>
    constructor
    · intro a v hrun
      cases hrun
    · intro e v hrun
      cases hrun
      exact hstop w.store k hw

theorem triple_observe {ioError : ε} {f : σ → Except ε α} (hcrash : ∀ s, P s → C s) :
    Triple P (observe ioError f) (fun a s => P s ∧ f s = .ok a) C := by
  apply triple_act
  · rintro s a t hs (hfull | ⟨k, hfails⟩)
    · obtain ⟨hf, rfl⟩ := Prod.mk.inj hfull
      exact ⟨hs, hf⟩
    · cases hfails
  · rintro s e t hs (hfull | ⟨k, hfails⟩)
    · obtain ⟨-, rfl⟩ := Prod.mk.inj hfull
      exact hcrash s hs
    · cases hfails
      exact hcrash s hs
  · exact fun s _ hs => hcrash s hs

theorem triple_poll {ioError : ε} (hcrash : ∀ s, P s → C s) :
    Triple P (poll ioError) (fun _ => P) C :=
  (triple_observe hcrash).post (fun _ _ hq => hq.1)

theorem triple_change {ioError : ε} {f : σ → Except ε σ} {R : σ → Prop}
    (hcrash : ∀ s, P s → C s) (hok : ∀ s t, P s → f s = .ok t → R t) :
    Triple P (change ioError f) (fun _ => R) C := by
  apply triple_act
  · rintro s a t hs (hfull | ⟨k, hfails⟩)
    · cases hf : f s with
      | error e =>
        simp only [hf] at hfull
        cases hfull
      | ok u =>
        simp only [hf] at hfull
        cases hfull
        exact hok s t hs hf
    · cases hfails
  · rintro s e t hs (hfull | ⟨k, hfails⟩)
    · cases hf : f s with
      | error e' =>
        simp only [hf] at hfull
        cases hfull
        exact hcrash s hs
      | ok u =>
        simp only [hf] at hfull
        cases hfull
    · cases hfails
      exact hcrash s hs
  · exact fun s _ hs => hcrash s hs

theorem Triple.tolerate (h : Triple P p Q C) :
    Triple P (Crash.tolerate p) (fun r s => (∃ a, r = some a ∧ Q a s) ∨ (r = none ∧ C s)) C := by
  intro w hw
  obtain ⟨hok, herr⟩ := h w hw
  unfold Crash.tolerate
  cases hrun : p w with
  | ok a v =>
    constructor
    · intro r u hr
      cases hr
      exact .inl ⟨a, rfl, hok a v hrun⟩
    · intro e u hr
      cases hr
  | error e v =>
    have hc := herr e v hrun
    cases e with
    | failed e =>
      constructor
      · intro r u hr
        cases hr
        exact .inr ⟨rfl, hc⟩
      · intro e' u hr
        cases hr
    | stopped =>
      constructor
      · intro r u hr
        cases hr
      · intro e' u hr
        cases hr
        exact hc

theorem Triple.mapError {f : ε → ψ} (h : Triple P p Q C) : Triple P (Crash.mapError f p) Q C := by
  intro w hw
  obtain ⟨hok, herr⟩ := h w hw
  unfold Crash.mapError EStateM.adaptExcept
  cases hrun : p w with
  | ok a v =>
    constructor
    · intro b u hr
      cases hr
      exact hok a v hrun
    · intro e u hr
      cases hr
  | error e v =>
    constructor
    · intro b u hr
      cases hr
    · intro e' u hr
      cases hr
      exact herr e v hrun

theorem Triple.zoom {get : τ → σ} {set : σ → τ → τ} {F : τ → Prop} (h : Triple P p Q C)
    (hget : ∀ s t, get (set s t) = s) (hframe : ∀ s t, F t → F (set s t)) :
    Triple (fun t => F t ∧ P (get t)) (Crash.zoom get set p) (fun a t => F t ∧ Q a (get t))
      (fun t => F t ∧ C (get t)) := by
  rintro w ⟨hF, hP⟩
  obtain ⟨hok, herr⟩ := h ⟨get w.store, w.script⟩ hP
  unfold Crash.zoom
  cases hrun : p ⟨get w.store, w.script⟩ with
  | ok a v =>
    constructor
    · intro b u hr
      cases hr
      exact ⟨hframe v.store w.store hF, by rw [hget]; exact hok a v hrun⟩
    · intro e u hr
      cases hr
  | error e v =>
    constructor
    · intro b u hr
      cases hr
    · intro e' u hr
      cases hr
      exact ⟨hframe v.store w.store hF, by rw [hget]; exact herr e v hrun⟩

/-- A loop over a list, with an invariant of the items done so far. -/
theorem triple_forM {I : List ι → σ → Prop} {body : ι → Prog ε σ PUnit} {xs : List ι}
    (hbody : ∀ before x, Triple (I before) (body x) (fun _ => I (before ++ [x])) C)
    (before : List ι) :
    Triple (I before) (xs.forM body) (fun _ => I (before ++ xs)) C := by
  induction xs generalizing before with
  | nil =>
    rw [List.append_nil]
    exact triple_pure (fun _ hI => hI)
  | cons x rest ih =>
    have hrest := ih (before ++ [x])
    rw [List.append_assoc, List.singleton_append] at hrest
    exact (hbody before x).bind (fun _ => hrest)

theorem Triple.run_ok (h : Triple P p Q C) {w v : Scene σ} {a : α} (hw : P w.store)
    (hrun : p w = .ok a v) : Q a v.store := (h w hw).1 a v hrun

/-- Where returning implies the condition at a stop, every end of the program has it. -/
theorem Triple.final (h : Triple P p Q C) (hQ : ∀ a s, Q a s → C s) {w : Scene σ}
    (hw : P w.store) : C (Fallible.final (p w)).store := by
  obtain ⟨hok, herr⟩ := h w hw
  cases hrun : p w with
  | ok a v => exact hQ a v.store (hok a v hrun)
  | error e v => exact herr e v hrun

end Triple

def calm : ℕ → Event := fun _ => .done

/-- From a store with `P` the program returns with `Q` when nothing goes wrong. -/
def Completes (P : σ → Prop) (p : Prog ε σ α) (Q : α → σ → Prop) : Prop :=
  ∀ s, P s → ∃ a t, p ⟨s, calm⟩ = .ok a ⟨t, calm⟩ ∧ Q a t

section Completes
variable {P P' : σ → Prop} {Q Q' : α → σ → Prop} {p : Prog ε σ α}

theorem Completes.mono (h : Completes P p Q) (hpre : ∀ s, P' s → P s)
    (hpost : ∀ a s, Q a s → Q' a s) : Completes P' p Q' := by
  intro s hs
  obtain ⟨a, t, hrun, hQ⟩ := h s (hpre s hs)
  exact ⟨a, t, hrun, hpost a t hQ⟩

theorem Completes.pre (h : Completes P p Q) (hpre : ∀ s, P' s → P s) : Completes P' p Q :=
  h.mono hpre (fun _ _ hq => hq)

theorem Completes.post (h : Completes P p Q) (hpost : ∀ a s, Q a s → Q' a s) :
    Completes P p Q' := h.mono (fun _ hp => hp) hpost

/-- An undisturbed run returns with what holds whenever the program returns. -/
theorem Completes.and_triple {R : α → σ → Prop} {C : σ → Prop} (h : Completes P p Q)
    (htriple : Triple P p R C) : Completes P p (fun a s => Q a s ∧ R a s) := by
  intro s hs
  obtain ⟨a, t, hrun, hQ⟩ := h s hs
  exact ⟨a, t, hrun, hQ, htriple.run_ok (w := ⟨s, calm⟩) hs hrun⟩

theorem completes_pure {a : α} (h : ∀ s, P s → Q a s) :
    Completes P (pure a : Prog ε σ α) Q := fun s hs => ⟨a, s, rfl, h s hs⟩

theorem Completes.bind {R : β → σ → Prop} {f : α → Prog ε σ β} (h : Completes P p Q)
    (hf : ∀ a, Completes (Q a) (f a) R) : Completes P (p >>= f) R := by
  intro s hs
  obtain ⟨a, t, hrun, hQ⟩ := h s hs
  obtain ⟨b, u, hrest, hR⟩ := hf a t hQ
  exact ⟨b, u, Fallible.bind_ok.mpr ⟨a, ⟨t, calm⟩, hrun, hrest⟩, hR⟩

theorem completes_act {full : σ → Except ε α × σ} {fails : ℕ → σ → Except ε α × σ}
    {stops : ℕ → σ → σ} (h : ∀ s, P s → ∃ a t, full s = (.ok a, t) ∧ Q a t) :
    Completes P (act full fails stops) Q := by
  intro s hs
  obtain ⟨a, t, hfull, hQ⟩ := h s hs
  refine ⟨a, t, ?_, hQ⟩
  change conclude calm (full s) = _
  rw [hfull]
  rfl

theorem completes_observe {ioError : ε} {f : σ → Except ε α}
    (h : ∀ s, P s → ∃ a, f s = .ok a ∧ Q a s) : Completes P (observe ioError f) Q := by
  apply completes_act
  intro s hs
  obtain ⟨a, hf, hQ⟩ := h s hs
  exact ⟨a, s, by rw [hf], hQ⟩

theorem completes_poll {ioError : ε} : Completes P (poll ioError) (fun _ => P) :=
  completes_observe (fun _ hs => ⟨(), rfl, hs⟩)

theorem completes_change {ioError : ε} {f : σ → Except ε σ} {R : σ → Prop}
    (h : ∀ s, P s → ∃ t, f s = .ok t ∧ R t) :
    Completes P (change ioError f) (fun _ => R) := by
  apply completes_act
  intro s hs
  obtain ⟨t, hf, hR⟩ := h s hs
  exact ⟨(), t, by simp only [hf], hR⟩

/-- An operation that fails by itself, not by an event, is caught all the same. -/
theorem completes_tolerate_act {full : σ → Except ε α × σ} {fails : ℕ → σ → Except ε α × σ}
    {stops : ℕ → σ → σ} {R : Option α → σ → Prop}
    (hok : ∀ s a t, P s → full s = (.ok a, t) → R (some a) t)
    (herr : ∀ s e t, P s → full s = (.error e, t) → R none t) :
    Completes P (Crash.tolerate (act full fails stops)) R := by
  intro s hs
  have hrun : act full fails stops ⟨s, calm⟩ = conclude calm (full s) := rfl
  rcases hfull : full s with ⟨e | a, t⟩
  · refine ⟨none, t, ?_, herr s e t hs hfull⟩
    unfold Crash.tolerate
    rw [hrun, hfull]
    rfl
  · refine ⟨some a, t, ?_, hok s a t hs hfull⟩
    unfold Crash.tolerate
    rw [hrun, hfull]
    rfl

theorem Completes.ite {b : Bool} {q : Prog ε σ α} (hthen : b = true → Completes P p Q)
    (helse : b = false → Completes P q Q) : Completes P (if b = true then p else q) Q := by
  cases b with
  | true => exact hthen rfl
  | false => exact helse rfl

theorem Completes.given {R : Prop} (h : R → Completes P p Q) :
    Completes (fun s => R ∧ P s) p Q := fun s hs => h hs.1 s hs.2

theorem completes_exists {A : ι → σ → Prop} (h : ∀ i, Completes (A i) p Q) :
    Completes (fun s => ∃ i, A i s) p Q := by
  rintro s ⟨i, hi⟩
  exact h i s hi

theorem Completes.tolerate (h : Completes P p Q) :
    Completes P (Crash.tolerate p) (fun r s => ∃ a, r = some a ∧ Q a s) := by
  intro s hs
  obtain ⟨a, t, hrun, hQ⟩ := h s hs
  refine ⟨some a, t, ?_, a, rfl, hQ⟩
  unfold Crash.tolerate
  rw [hrun]

theorem Completes.mapError {f : ε → ψ} (h : Completes P p Q) :
    Completes P (Crash.mapError f p) Q := by
  intro s hs
  obtain ⟨a, t, hrun, hQ⟩ := h s hs
  refine ⟨a, t, ?_, hQ⟩
  unfold Crash.mapError EStateM.adaptExcept
  rw [hrun]

theorem Completes.zoom {get : τ → σ} {set : σ → τ → τ} {F : τ → Prop} (h : Completes P p Q)
    (hget : ∀ s t, get (set s t) = s) (hframe : ∀ s t, F t → F (set s t)) :
    Completes (fun t => F t ∧ P (get t)) (Crash.zoom get set p)
      (fun a t => F t ∧ Q a (get t)) := by
  rintro t ⟨hF, hP⟩
  obtain ⟨a, s, hrun, hQ⟩ := h (get t) hP
  refine ⟨a, set s t, ?_, hframe s t hF, by rw [hget]; exact hQ⟩
  unfold Crash.zoom
  rw [hrun]

theorem completes_forM {I : List ι → σ → Prop} {body : ι → Prog ε σ PUnit} {xs : List ι}
    (hbody : ∀ before x, Completes (I before) (body x) (fun _ => I (before ++ [x])))
    (before : List ι) :
    Completes (I before) (xs.forM body) (fun _ => I (before ++ xs)) := by
  induction xs generalizing before with
  | nil =>
    rw [List.append_nil]
    exact completes_pure (fun _ hI => hI)
  | cons x rest ih =>
    have hrest := ih (before ++ [x])
    rw [List.append_assoc, List.singleton_append] at hrest
    exact (hbody before x).bind (fun _ => hrest)

end Completes

end Crash
