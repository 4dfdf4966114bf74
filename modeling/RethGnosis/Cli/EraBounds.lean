import RethGnosis.Cli.Era

set_option autoImplicit false

/-!
# The bounds of an import

`process_iter` turns its two bounds into a number already seen and a target. An included
bound keeps its meaning, the other kinds are off by one on either side.
-/
namespace RethGnosis
open Fallible

def Bound.value : Bound → ℕ
  | included number => number
  | excluded number => number
  | unbounded => 0

/-- An included start is the block that is imported already. -/
def Bound.startsBelow (start : Bound) (number : ℕ) : Bool :=
  match start with
  | included first => first < number
  | excluded first => first < number
  | unbounded => true

def Bound.endsAbove (last : Bound) (number : ℕ) : Bool :=
  match last with
  | included last => number ≤ last
  | excluded last => number < last
  | unbounded => true

def BlockRange.selects (range : BlockRange) (number : ℕ) : Bool :=
  range.startBound.startsBelow number && range.endBound.endsAbove number

def BlockRange.reaches (range : BlockRange) (number : ℕ) : Bool :=
  decide (range.startBound.lastHeaderNumber < number) &&
    !pastTarget range.endBound.target number

section Bounds
variable {BH BB : Type}

/-- On every storage, `process_iter` imports the blocks in the range and returns the number of the
last of them, or the start of the range. -/
def AppendsRange (number : BH → ℕ) (range : BlockRange) (blocks : List (EraBlock BH BB)) : Prop :=
  ∀ (σ ε : Type) (storage : EraStorage σ ε BH BB), storage.number = number →
    processIter storage (blocks.map .ok) range = (do
      (blocks.filter (fun block => range.selects (number block.1))).forM (importEraBlock storage)
      pure ((numbers storage (blocks.filter
        (fun block => range.selects (number block.1)))).getLastD range.startBound.value))

/-- The numbers avoid what the bounds get wrong: an excluded start is taken in and returned one too
low, an unbounded start leaves out block 0, and past an excluded end two blocks are taken in. -/
structure RangeCondition (range : BlockRange) (ns : List ℕ) : Prop where
  excludedStart : ∀ n, range.startBound = .excluded n → 0 < n →
    (∃ x ∈ ns, range.selects x = true) ∧ ¬ (n ∈ ns ∧ pastTarget range.endBound.target n = false)
  unboundedStart : range.startBound = .unbounded → 0 ∈ ns → range.endBound.endsAbove 0 = false
  excludedEnd : ∀ m, range.endBound = .excluded m →
    ∀ x ∈ ns, range.startBound.lastHeaderNumber < x → x ≠ m ∧ x ≠ m + 1

theorem pastTarget_excluded {m x : ℕ} (hx : x < 2 ^ 64) :
    pastTarget (Bound.excluded m).target x = decide (m + 1 < x) := by
  unfold pastTarget Bound.target
  dsimp only
  rw [decide_eq_decide]
  omega

theorem pastTarget_mono {target : Option ℕ} {x y : ℕ} (hxy : x ≤ y)
    (h : pastTarget target x = true) : pastTarget target y = true := by
  cases target with
  | none => exact h
  | some last =>
    have hx : last < x := of_decide_eq_true h
    exact decide_eq_true (Nat.lt_of_lt_of_le hx hxy)

/-- Where the numbers increase, skipping and breaking select the blocks of an interval. -/
theorem importedBlocks_eq_filter {σ ε : Type} (storage : EraStorage σ ε BH BB)
    (target : Option ℕ) {blocks : List (EraBlock BH BB)}
    (hincreasing : (numbers storage blocks).Pairwise (· < ·)) (lastHeaderNumber : ℕ) :
    importedBlocks storage target (blocks.map .ok) lastHeaderNumber =
      blocks.filter (fun block => decide (lastHeaderNumber < storage.number block.1) &&
        !pastTarget target (storage.number block.1)) := by
  induction blocks generalizing lastHeaderNumber with
  | nil => rfl
  | cons block rest ih =>
    obtain ⟨hfirst, hrest⟩ := List.pairwise_cons.mp hincreasing
    have hlater : ∀ later ∈ rest, storage.number block.1 < storage.number later.1 := by
      intro later hlater
      exact hfirst _ (List.mem_map_of_mem hlater)
    rw [List.map_cons, importedBlocks]
    by_cases hskip : storage.number block.1 ≤ lastHeaderNumber
    · rw [if_pos hskip, List.filter_cons_of_neg (by simp [Nat.not_lt.mpr hskip])]
      exact ih hrest lastHeaderNumber
    · have hnew : lastHeaderNumber < storage.number block.1 := Nat.lt_of_not_le hskip
      rw [if_neg hskip]
      cases hpast : pastTarget target (storage.number block.1) with
      | true =>
        rw [if_pos rfl, eq_comm, List.filter_eq_nil_iff]
        intro later hmem
        have hle : storage.number block.1 ≤ storage.number later.1 := by
          rcases List.mem_cons.mp hmem with rfl | hmem
          · exact Nat.le_refl _
          · exact Nat.le_of_lt (hlater later hmem)
        simp [pastTarget_mono hle hpast]
      | false =>
        rw [if_neg Bool.false_ne_true, List.filter_cons_of_pos (by simp [hnew, hpast]), ih hrest]
        refine congrArg (block :: ·) (List.filter_congr ?_)
        intro later hmem
        have hlt := hlater later hmem
        rw [decide_eq_true hlt, decide_eq_true (Nat.lt_trans hnew hlt)]

section Condition
variable {range : BlockRange} {ns : List ℕ}

theorem RangeCondition.end_eq (h : RangeCondition range ns) {x : ℕ} (hx : x ∈ ns)
    (hu64 : x < 2 ^ 64) (hafter : range.startBound.lastHeaderNumber < x) :
    (!pastTarget range.endBound.target x) = range.endBound.endsAbove x := by
  cases hend : range.endBound with
  | included m =>
    change (!decide (m < x)) = decide (x ≤ m)
    rw [← decide_not, decide_eq_decide]
    omega
  | excluded m =>
    obtain ⟨hm, hm'⟩ := h.excludedEnd m hend x hx hafter
    change (!pastTarget (Bound.excluded m).target x) = decide (x < m)
    rw [pastTarget_excluded hu64, ← decide_not, decide_eq_decide]
    omega
  | unbounded => rfl

theorem RangeCondition.reaches_eq (h : RangeCondition range ns) {x : ℕ} (hx : x ∈ ns)
    (hu64 : x < 2 ^ 64) : range.reaches x = range.selects x := by
  have hend := h.end_eq hx hu64
  unfold BlockRange.reaches BlockRange.selects
  by_cases hafter : range.startBound.lastHeaderNumber < x
  · rw [decide_eq_true hafter, hend hafter]
    cases hstart : range.startBound with
    | included n =>
      rw [hstart] at hafter
      change n < x at hafter
      rw [Bound.startsBelow, decide_eq_true hafter]
    | excluded n =>
      rw [hstart] at hafter
      change n - 1 < x at hafter
      by_cases hbelow : n < x
      · rw [Bound.startsBelow, decide_eq_true hbelow]
      · obtain rfl : x = n := by omega
        -- The excluded start itself is then past the target.
        have hpast := (h.excludedStart x hstart (by omega)).2
        rw [hstart] at hend
        rw [← hend (by change x - 1 < x; omega)]
        cases hcase : pastTarget range.endBound.target x with
        | true => rw [Bool.not_true, Bool.and_false, Bool.and_false]
        | false => exact absurd ⟨hx, hcase⟩ hpast
    | unbounded => rfl
  · rw [decide_eq_false hafter, Bool.false_and]
    cases hstart : range.startBound with
    | included n =>
      rw [hstart] at hafter
      change ¬ n < x at hafter
      rw [Bound.startsBelow, decide_eq_false hafter, Bool.false_and]
    | excluded n =>
      rw [hstart] at hafter
      change ¬ n - 1 < x at hafter
      rw [Bound.startsBelow, decide_eq_false (by omega), Bool.false_and]
    | unbounded =>
      rw [hstart] at hafter
      change ¬ 0 < x at hafter
      obtain rfl : x = 0 := by omega
      rw [h.unboundedStart hstart hx, Bool.and_false]

theorem RangeCondition.last_eq (h : RangeCondition range ns) :
    (ns.filter range.selects).getLastD range.startBound.lastHeaderNumber =
      (ns.filter range.selects).getLastD range.startBound.value := by
  cases hlist : ns.filter range.selects with
  | cons x rest => rfl
  | nil =>
    cases hstart : range.startBound with
    | included n => rfl
    | unbounded => rfl
    | excluded n =>
      change n - 1 = n
      by_cases hn : 0 < n
      · obtain ⟨x, hx, hselects⟩ := (h.excludedStart n hstart hn).1
        have hmem : x ∈ ns.filter range.selects := List.mem_filter.mpr ⟨hx, hselects⟩
        rw [hlist] at hmem
        cases hmem
      · omega

theorem rangeCondition_of_eq (hu64 : ∀ x ∈ ns, x < 2 ^ 64)
    (hfilter : ns.filter range.reaches = ns.filter range.selects)
    (hlast : (ns.filter range.reaches).getLastD range.startBound.lastHeaderNumber =
      (ns.filter range.selects).getLastD range.startBound.value) :
    RangeCondition range ns := by
  have hsame : ∀ x ∈ ns, range.reaches x = range.selects x := by
    intro x hx
    rw [Bool.eq_iff_iff]
    have hiff : x ∈ ns.filter range.reaches ↔ x ∈ ns.filter range.selects := by rw [hfilter]
    rw [List.mem_filter, List.mem_filter, and_iff_right hx, and_iff_right hx] at hiff
    exact hiff
  constructor
  · intro n hstart hn
    constructor
    · by_contra hnone
      have hnil : ns.filter range.selects = [] := by
        rw [List.filter_eq_nil_iff]
        exact fun x hx hselects => hnone ⟨x, hx, hselects⟩
      rw [hfilter, hnil, hstart] at hlast
      change n - 1 = n at hlast
      omega
    · rintro ⟨hx, hpast⟩
      have hn := hsame n hx
      rw [BlockRange.reaches, BlockRange.selects, hstart, hpast] at hn
      change (decide (n - 1 < n) && true) = (decide (n < n) && _) at hn
      rw [decide_eq_true (by omega), decide_eq_false (by omega)] at hn
      cases hn
  · intro hstart hx
    have hzero := hsame 0 hx
    rw [BlockRange.reaches, BlockRange.selects, hstart] at hzero
    exact hzero.symm
  · intro m hend x hx hafter
    have hx' := hsame x hx
    rw [BlockRange.reaches, BlockRange.selects, hend, pastTarget_excluded (hu64 x hx),
      decide_eq_true hafter, Bool.true_and] at hx'
    change (!decide (m + 1 < x)) = (_ && decide (x < m)) at hx'
    constructor
    · rintro rfl
      rw [decide_eq_false (by omega), decide_eq_false (by omega), Bool.and_false] at hx'
      cases hx'
    · rintro rfl
      rw [decide_eq_false (by omega), decide_eq_false (by omega), Bool.and_false] at hx'
      cases hx'

end Condition

def headerLog (number : BH → ℕ) : EraStorage (List ℕ) Unit BH BB where
  number := number
  hashSlow := fun _ => 0
  highestStaticFileBlock := fun log _ => log.getLast?
  databaseProviderRw := pure ()
  latestWriter := fun _ => pure ()
  appendHeader := fun header _ => modify (fun log => log ++ [number header])
  appendBlockBodies := fun _ => pure ()
  blockBodyIndices := fun _ _ => .ok (some ⟨0, 0⟩)
  appendReceipt := fun _ _ => pure ()
  incrementBlock := fun _ => pure ()
  insertHash := fun _ _ => pure ()
  saveStageCheckpoints := fun _ _ _ _ => pure ()
  commit := pure ()
  buildIndex := pure ()

theorem appendReceipts_headerLog (number : BH → ℕ) (i : ℕ) (receipts : List ReceiptWithBloom)
    (log : List ℕ) :
    appendReceipts (headerLog number : EraStorage (List ℕ) Unit BH BB) i receipts log =
      .ok () log := by
  induction receipts generalizing i with
  | nil => rfl
  | cons receipt rest ih => exact ih (i + 1)

theorem importEraBlock_headerLog (number : BH → ℕ) (block : EraBlock BH BB) (log : List ℕ) :
    importEraBlock (headerLog number) block log = .ok () (log ++ [number block.1]) := by
  have hreceipts := @appendReceipts_headerLog BH BB number 0 block.2.2 (log ++ [number block.1])
  refine bind_ok.mpr ⟨(), log ++ [number block.1], rfl, ?_⟩
  refine bind_ok.mpr ⟨(), log ++ [number block.1], rfl, ?_⟩
  exact bind_ok.mpr ⟨(), log ++ [number block.1], hreceipts, rfl⟩

theorem forM_headerLog (number : BH → ℕ) (blocks : List (EraBlock BH BB)) (log : List ℕ) :
    blocks.forM (importEraBlock (headerLog number)) log =
      .ok () (log ++ blocks.map (fun block => number block.1)) := by
  induction blocks generalizing log with
  | nil =>
    rw [List.map_nil, List.append_nil]
    rfl
  | cons block rest ih =>
    refine bind_ok.mpr ⟨(), log ++ [number block.1], importEraBlock_headerLog number block log, ?_⟩
    rw [ih, List.map_cons, List.append_assoc, List.singleton_append]

theorem headerLog_run (number : BH → ℕ) (blocks : List (EraBlock BH BB)) (height : ℕ) :
    (do blocks.forM (importEraBlock (headerLog number)); pure height : Import (List ℕ) Unit ℕ) [] =
      .ok height (blocks.map (fun block => number block.1)) :=
  bind_ok.mpr ⟨(), _, forM_headerLog number blocks [], rfl⟩

theorem filter_numbers (number : BH → ℕ) (p : ℕ → Bool) (blocks : List (EraBlock BH BB)) :
    (blocks.filter (fun block => p (number block.1))).map (fun block => number block.1) =
      (blocks.map (fun block => number block.1)).filter p := by
  rw [List.filter_map]
  rfl

/-- For blocks with increasing numbers `process_iter` does what its bounds say exactly if the
numbers avoid the excluded bounds and, below an unbounded start, block 0. -/
theorem appendsRange_iff (number : BH → ℕ) (range : BlockRange) (blocks : List (EraBlock BH BB))
    (hincreasing : (blocks.map (fun block => number block.1)).Pairwise (· < ·))
    (hu64 : ∀ block ∈ blocks, number block.1 < 2 ^ 64) :
    AppendsRange number range blocks ↔
      RangeCondition range (blocks.map (fun block => number block.1)) := by
  have hu64' : ∀ x ∈ blocks.map (fun block => number block.1), x < 2 ^ 64 :=
    List.forall_mem_map.mpr hu64
  have hcode : ∀ (σ ε : Type) (storage : EraStorage σ ε BH BB), storage.number = number →
      processIter storage (blocks.map .ok) range = (do
        (blocks.filter (fun block => range.reaches (number block.1))).forM (importEraBlock storage)
        pure (((blocks.map (fun block => number block.1)).filter range.reaches).getLastD
          range.startBound.lastHeaderNumber)) := by
    intro σ ε storage hnumber
    subst hnumber
    rw [processIter, processItems_ok_eq, importedBlocks_eq_filter storage _ hincreasing,
      ← filter_numbers]
    rfl
  constructor
  · intro h
    have hlog := h (List ℕ) Unit (headerLog number) rfl
    rw [hcode _ _ _ rfl] at hlog
    have hrun := congrFun hlog []
    rw [headerLog_run, headerLog_run, EStateM.Result.ok.injEq, numbers, filter_numbers,
      filter_numbers] at hrun
    refine rangeCondition_of_eq hu64' hrun.2 ?_
    rw [hrun.1]
    exact congrArg (fun ns => List.getLastD ns range.startBound.value)
      (filter_numbers number range.selects blocks)
  · intro h σ ε storage hnumber
    have hsame : blocks.filter (fun block => range.reaches (number block.1)) =
        blocks.filter (fun block => range.selects (number block.1)) := by
      apply List.filter_congr
      intro block hblock
      exact h.reaches_eq (List.mem_map_of_mem hblock) (hu64 block hblock)
    rw [hcode σ ε storage hnumber, ← filter_numbers, hsame, filter_numbers, h.last_eq,
      ← filter_numbers, numbers, hnumber]

end Bounds

section Examples

def fourBlocks : List (EraBlock ℕ Unit) := [(2, (), []), (3, (), []), (4, (), []), (5, (), [])]

/-- After 1 and before 3: the code imports 3 and 4 as well. From after 2: it imports 2. -/
theorem fourBlocks_offByOne :
    processIter (headerLog id) (fourBlocks.map .ok) ⟨.included 1, .excluded 3⟩ [] =
      .ok 4 [2, 3, 4] ∧
    processIter (headerLog id) (fourBlocks.map .ok) ⟨.excluded 2, .unbounded⟩ [] =
      .ok 5 [2, 3, 4, 5] ∧
    ¬ AppendsRange id ⟨.included 1, .excluded 3⟩ fourBlocks ∧
    ¬ AppendsRange id ⟨.excluded 2, .unbounded⟩ fourBlocks := by
  have hend : processIter (headerLog id) (fourBlocks.map .ok) ⟨.included 1, .excluded 3⟩ [] =
      .ok 4 [2, 3, 4] := rfl
  have hstart : processIter (headerLog id) (fourBlocks.map .ok) ⟨.excluded 2, .unbounded⟩ [] =
      .ok 5 [2, 3, 4, 5] := rfl
  refine ⟨hend, hstart, fun h => ?_, fun h => ?_⟩
  · have hrun := congrFun (h (List ℕ) Unit (headerLog id) rfl) []
    rw [headerLog_run] at hrun
    exact absurd (EStateM.Result.ok.inj (hend.symm.trans hrun)).2 (by decide)
  · have hrun := congrFun (h (List ℕ) Unit (headerLog id) rfl) []
    rw [headerLog_run] at hrun
    exact absurd (EStateM.Result.ok.inj (hstart.symm.trans hrun)).2 (by decide)

theorem appendsRange_iff_fourBlocks :
    AppendsRange id ⟨.included 2, .included 4⟩ fourBlocks ↔
      RangeCondition ⟨.included 2, .included 4⟩ [2, 3, 4, 5] :=
  appendsRange_iff id ⟨.included 2, .included 4⟩ fourBlocks (by decide) (by decide)

end Examples

end RethGnosis
