import RethGnosis.Aura.LiveStep

set_option autoImplicit false

/-!
# Runs of consecutive blocks

What holds between any two blocks of a live run. `contractFrom` is the shape of
the shipped chain specs, a validator list followed by one contract; the fixed
inputs of the later modules use it.
-/
namespace RethGnosis
open RollingFinality

structure Between (n : ℕ) (rf : RollingFinality) : Prop where
  window : WindowInv rf
  before : Before n rf

theorem between_new (n : ℕ) (validators : List Address) : Between n (new validators) :=
  ⟨windowInv_new validators, before_new n validators⟩

theorem Between.liveBlock {c : AuraConfig} {b : AuraBlock} {rf : RollingFinality}
    (h : Between b.number rf) : Between (b.number + 1) (liveBlock c b rf) :=
  ⟨WindowInv.liveBlock h.window, h.before.liveBlock h.window⟩

theorem Consecutive.append {n : ℕ} {xs ys : List AuraBlock} :
    Consecutive n (xs ++ ys) ↔ Consecutive n xs ∧ Consecutive (n + xs.length) ys := by
  induction xs generalizing n with
  | nil => simp [Consecutive]
  | cons b rest ih =>
    simp only [List.cons_append, Consecutive, ih, and_assoc, List.length_cons]
    rw [show n + 1 + rest.length = n + (rest.length + 1) by omega]

def Upcoming (bs : List AuraBlock) (rf : RollingFinality) : Prop :=
  ∃ n, Consecutive n bs ∧ Between n rf

theorem Upcoming.next {c : AuraConfig} {b : AuraBlock} {rest : List AuraBlock}
    {rf : RollingFinality} (h : Upcoming (b :: rest) rf) : Upcoming rest (liveBlock c b rf) := by
  obtain ⟨n, ⟨hn, hrest⟩, hrf⟩ := h
  subst hn
  exact ⟨b.number + 1, hrest, hrf.liveBlock⟩

theorem Upcoming.head {b : AuraBlock} {rest : List AuraBlock} {rf : RollingFinality}
    (h : Upcoming (b :: rest) rf) : Between b.number rf := by
  obtain ⟨n, ⟨hn, -⟩, hrf⟩ := h
  rwa [hn]

theorem Between.runLive {c : AuraConfig} {bs : List AuraBlock} {n : ℕ} {rf : RollingFinality}
    (h : Between n rf) (hbs : Consecutive n bs) :
    Between (n + bs.length) (runLive c bs rf) := by
  induction bs generalizing n rf with
  | nil => exact h
  | cons b rest ih =>
    have hnext : Between (n + 1) (RethGnosis.liveBlock c b rf) := by
      have hb := hbs.1
      subst hb
      exact h.liveBlock
    have hlast := ih hnext hbs.2
    rw [List.length_cons, show n + (rest.length + 1) = n + 1 + rest.length by omega]
    exact hlast

theorem Between.executed {c : AuraConfig} {bs : List AuraBlock} {n : ℕ} {rf : RollingFinality}
    (h : Between n rf) (hbs : Consecutive n bs) {v : AuraBlock × RollingFinality}
    (hv : v ∈ executed c bs rf) : Between v.1.number v.2 := by
  have hup : Upcoming bs rf := ⟨n, hbs, h⟩
  obtain ⟨rest, hrest⟩ := (Run.invariant_remaining (fun _ _ _ => Upcoming.next) hup).2 v hv
  exact hrest.head

theorem executed_split {c : AuraConfig} {before after : List AuraBlock} {b next : AuraBlock}
    {rf : RollingFinality} :
    executed c (before ++ b :: next :: after) rf =
      executed c (before ++ [b]) rf ++ (next, runLive c (before ++ [b]) rf) ::
        executed c after (liveBlock c next (runLive c (before ++ [b]) rf)) := by
  rw [show before ++ b :: next :: after = (before ++ [b]) ++ next :: after by simp]
  exact Run.visits_append (before ++ [b]) (next :: after) rf

theorem runLive_append_single {c : AuraConfig} {before : List AuraBlock} {b : AuraBlock}
    {rf : RollingFinality} :
    runLive c (before ++ [b]) rf = liveBlock c b (runLive c before rf) :=
  Run.run_append before [b] rf

theorem executed_append_single {c : AuraConfig} {before : List AuraBlock} {b : AuraBlock}
    {rf : RollingFinality} :
    executed c (before ++ [b]) rf = executed c before rf ++ [(b, runLive c before rf)] :=
  Run.visits_append before [b] rf

theorem executed_append_right {c : AuraConfig} {before after : List AuraBlock}
    {rf : RollingFinality} {v : AuraBlock × RollingFinality}
    (hv : v ∈ executed c after (runLive c before rf)) : v ∈ executed c (before ++ after) rf := by
  have happend : executed c (before ++ after) rf =
      executed c before rf ++ executed c after (runLive c before rf) :=
    Run.visits_append before after rf
  rw [happend]
  exact List.mem_append_right _ hv

theorem Consecutive.mem_bounds {n : ℕ} {bs : List AuraBlock} (h : Consecutive n bs)
    {b : AuraBlock} (hb : b ∈ bs) : n ≤ b.number ∧ b.number < n + bs.length := by
  induction bs generalizing n with
  | nil => simp at hb
  | cons x rest ih =>
    obtain ⟨hx, hrest⟩ := h
    rw [List.length_cons]
    rcases List.mem_cons.mp hb with rfl | hb
    · omega
    · have := ih hrest hb
      omega

theorem executed_mem {c : AuraConfig} {bs : List AuraBlock} {rf : RollingFinality}
    {v : AuraBlock × RollingFinality} (hv : v ∈ executed c bs rf) : v.1 ∈ bs := by
  obtain ⟨before, after, heq, -⟩ := Run.mem_visits_iff.mp hv
  rw [heq]
  simp

def contractFrom (start : ℕ) (contract : Address) (posdaoTransition : ℕ) : AuraConfig where
  stepDuration := 5
  validators :=
    { sets := (∅ : BTreeMap ℕ ValidatorSetKind).insert 0 (.list []) |>.insert start
        (.contract contract)
      nonempty := by simp }
  blockRewardContractTransitions := ∅
  posdaoTransition := posdaoTransition
  rewriteBytecode := ∅

end RethGnosis
