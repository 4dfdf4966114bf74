import RethGnosis.Cli.EraBounds
import RethGnosis.Cli.EraReceipts

set_option autoImplicit false

/-!
# Reaching the target of an import

`era::import` takes the range of each file to be the 8192 blocks after the current height.
From a height inside a file that range reaches into the next file.
-/
namespace RethGnosis
open Fallible StoredBlocks

section Storage
variable {σ ε BH BB : Type} (storage : EraStorage σ ε BH BB) (view : σ → StoredBlocks BH BB)
  (txCount : BB → ℕ)

/-- A storage on which nothing fails as long as headers, receipts and blocks of receipts come
without a gap. -/
structure HealthyStorage : Prop where
  height : ∀ s, storage.highestStaticFileBlock s .Headers = (view s).height
  blockBodyIndices : ∀ s number idx, (view s).indices number = some idx →
    storage.blockBodyIndices s number = .ok (some idx)
  appendHeader : ∀ s header hash n, (view s).height = some n → storage.number header = n + 1 →
    Delivers (storage.appendHeader header hash) s
      (fun _ t => view t = (view s).appendHeader (storage.number header) header)
  appendBlockBodies : ∀ s number body, (view s).height = some number →
    Delivers (storage.appendBlockBodies [(number, some body)]) s
      (fun _ t => view t = (view s).appendBody number body (txCount body))
  appendReceipt : ∀ s i receipt, i = (view s).nextReceipt →
    Delivers (storage.appendReceipt i receipt) s
      (fun _ t => view t = (view s).appendReceipt i receipt)
  incrementBlock : ∀ s n, (view s).receiptsHeight = some n →
    Delivers (storage.incrementBlock (n + 1)) s
      (fun _ t => view t = (view s).incrementBlock (n + 1))
  insertHash : ∀ s hash number,
    Delivers (storage.insertHash hash number) s (fun _ t => view t = view s)
  databaseProviderRw : ∀ s, Delivers storage.databaseProviderRw s (fun _ t => view t = view s)
  latestWriter : ∀ s segment,
    Delivers (storage.latestWriter segment) s (fun _ t => view t = view s)
  saveStageCheckpoints : ∀ s start reached processed total,
    Delivers (storage.saveStageCheckpoints start reached processed total) s
      (fun _ t => view t = view s)
  commit : ∀ s, Delivers storage.commit s (fun _ t => view t = view s)
  buildIndex : ∀ s, Delivers storage.buildIndex s (fun _ t => view t = view s)

structure Ready (stored : StoredBlocks BH BB) (h : ℕ) : Prop where
  height : stored.height = some h
  receiptsHeight : stored.receiptsHeight = some h
  nextReceipt : stored.nextReceipt = stored.nextTx

variable {storage view txCount}

theorem HealthyStorage.appendReceipts (healthy : HealthyStorage storage view txCount) {s : σ}
    (receipts : List ReceiptWithBloom) {i : ℕ} (hnext : i = (view s).nextReceipt) :
    Delivers (appendReceipts storage i receipts) s
      (fun _ t => view t = (view s).appendReceipts i receipts) := by
  induction receipts generalizing i s with
  | nil => exact delivers_pure rfl
  | cons receipt rest ih =>
    refine ((healthy.appendReceipt s i receipt.receipt hnext).adaptExcept _).bind ?_
    intro _ t ht
    have hrest := ih (s := t) (i := i + 1) (by rw [ht]; rfl)
    rw [ht] at hrest
    exact hrest

theorem HealthyStorage.importEraBlock (healthy : HealthyStorage storage view txCount) {s : σ}
    {h : ℕ} (ready : Ready (view s) h) {block : EraBlock BH BB}
    (hnumber : storage.number block.1 = h + 1) :
    Delivers (importEraBlock storage block) s (fun _ t =>
      view t = (view s).importBlock (storage.number block.1) (txCount block.2.1) block) := by
  refine ((healthy.appendHeader s block.1 _ h ready.height hnumber).adaptExcept _).bind ?_
  intro _ s₁ h₁
  have hheight : (view s₁).height = some (storage.number block.1) := by
    rw [h₁]
    rfl
  refine ((healthy.appendBlockBodies s₁ _ block.2.1 hheight).adaptExcept _).bind ?_
  intro _ s₂ h₂
  rw [h₁] at h₂
  have hindices : (view s₂).indices (storage.number block.1) =
      some ⟨(view s).nextTx, txCount block.2.1⟩ := by
    rw [h₂, appendBody_indices_self]
    rfl
  have hreceipts : Delivers (appendBlockReceipts storage (storage.number block.1) block.2.2) s₂
      (fun _ t => view t = (view s₂).appendReceipts (view s).nextTx block.2.2) := by
    unfold appendBlockReceipts
    have hrun := healthy.appendReceipts (s := s₂) block.2.2 (i := (view s).nextTx)
      (by rw [h₂]; exact ready.nextReceipt.symm)
    obtain ⟨a, t, hok, ht⟩ := hrun
    refine ⟨a, t, ?_, ht⟩
    rw [get_bind_run, healthy.blockBodyIndices s₂ _ _ hindices]
    exact hok
  refine hreceipts.bind ?_
  intro _ s₃ h₃
  have hbehind : (view s₃).receiptsHeight = some h := by
    rw [h₃, appendReceipts_receiptsHeight, h₂]
    exact ready.receiptsHeight
  have hincrement := healthy.incrementBlock s₃ h hbehind
  rw [← hnumber] at hincrement
  refine (hincrement.adaptExcept _).bind ?_
  intro _ s₄ h₄
  refine ((healthy.insertHash s₄ _ _).adaptExcept _).mono ?_
  intro _ t ht
  rw [ht, h₄, h₃, h₂]
  rfl

theorem Ready.importBlock {stored : StoredBlocks BH BB} {h : ℕ} (ready : Ready stored h)
    {block : EraBlock BH BB} (hall : HasAllReceipts txCount block) :
    Ready (stored.importBlock (h + 1) (txCount block.2.1) block) (h + 1) := by
  constructor
  · exact importBlock_height _ _ _ _
  · rfl
  · by_cases hempty : block.2.2 = []
    · have hcount : txCount block.2.1 = 0 := by
        rw [← hall, hempty, List.length_nil]
      rw [importBlock_nextReceipt_nil _ _ _ _ hempty, importBlock_nextTx, hcount]
      exact ready.nextReceipt
    · rw [importBlock_nextReceipt _ _ _ _ hempty, importBlock_nextTx, hall]

end Storage

/-! ### Consecutive blocks -/

section Window
variable {BH BB : Type} (blockAt : ℕ → EraBlock BH BB)

def window (first last : ℕ) : List (EraBlock BH BB) :=
  (List.range' (first + 1) (last - first)).map blockAt

variable {blockAt}

theorem window_self (n : ℕ) : window blockAt n n = [] := by
  unfold window
  rw [Nat.sub_self]
  rfl

theorem window_append {a b c : ℕ} (hab : a ≤ b) (hbc : b ≤ c) :
    window blockAt a b ++ window blockAt b c = window blockAt a c := by
  have hmiddle : b + 1 = (a + 1) + (b - a) := by omega
  have hlength : c - a = (b - a) + (c - b) := by omega
  unfold window
  rw [← List.map_append, hmiddle, List.range'_append_1, hlength]

theorem window_succ (first : ℕ) (n : ℕ) :
    window blockAt first (first + (n + 1)) =
      blockAt (first + 1) :: window blockAt (first + 1) (first + 1 + n) := by
  unfold window
  rw [Nat.add_sub_cancel_left, Nat.add_sub_cancel_left, List.range'_succ, List.map_cons]

theorem filter_range_interval {start low high size : ℕ} {p : ℕ → Bool} (hlow : start ≤ low)
    (hbetween : low ≤ high) (hhigh : high ≤ start + size) (hbefore : ∀ n, n < low → p n = false)
    (hmiddle : ∀ n, low ≤ n → n < high → p n = true)
    (hafter : ∀ n, high ≤ n → n < start + size → p n = false) :
    (List.range' start size).filter p = List.range' low (high - low) := by
  have hsplit : List.range' start size =
      List.range' start (low - start) ++ (List.range' low (high - low) ++
        List.range' high (start + size - high)) := by
    have hlow' : start + (low - start) = low := by omega
    have hhigh' : low + (high - low) = high := by omega
    have hsize : (low - start) + ((high - low) + (start + size - high)) = size := by omega
    have hright := @List.range'_append_1 low (high - low) (start + size - high)
    have hleft := @List.range'_append_1 start (low - start) ((high - low) + (start + size - high))
    rw [hhigh'] at hright
    rw [hlow', hsize] at hleft
    rw [hright, hleft]
  have hfirst : (List.range' start (low - start)).filter p = [] := by
    rw [List.filter_eq_nil_iff]
    intro n hn
    rw [List.mem_range'_1] at hn
    rw [hbefore n (by omega)]
    exact Bool.false_ne_true
  have hsecond : (List.range' low (high - low)).filter p = List.range' low (high - low) := by
    rw [List.filter_eq_self]
    intro n hn
    rw [List.mem_range'_1] at hn
    exact hmiddle n hn.1 (by omega)
  have hthird : (List.range' high (start + size - high)).filter p = [] := by
    rw [List.filter_eq_nil_iff]
    intro n hn
    rw [List.mem_range'_1] at hn
    rw [hafter n hn.1 (by omega)]
    exact Bool.false_ne_true
  rw [hsplit, List.filter_append, List.filter_append, hfirst, hsecond, hthird, List.nil_append,
    List.append_nil]

theorem range_getLastD (first n : ℕ) : (List.range' (first + 1) n).getLastD first = first + n := by
  induction n generalizing first with
  | zero => rfl
  | succ n ih =>
    rw [List.range'_succ, List.getLastD_cons, ih]
    omega

end Window

section Chain
variable {σ ε BH BB : Type} {storage : EraStorage σ ε BH BB} {view : σ → StoredBlocks BH BB}
  {txCount : BB → ℕ}

theorem importAll_append (first second : List (EraBlock BH BB)) (stored : StoredBlocks BH BB) :
    importAll storage.number txCount (first ++ second) stored =
      importAll storage.number txCount second (importAll storage.number txCount first stored) :=
  List.foldl_append

variable (storage txCount) in
structure ChainBlock (n : ℕ) (block : EraBlock BH BB) : Prop where
  number : storage.number block.1 = n
  receipts : HasAllReceipts txCount block

variable {blockAt : ℕ → EraBlock BH BB}

theorem numbers_eq_range {start size : ℕ} (hchain : ∀ n, start ≤ n → n < start + size →
    ChainBlock storage txCount n (blockAt n)) :
    numbers storage ((List.range' start size).map blockAt) = List.range' start size := by
  unfold numbers
  rw [List.map_map]
  conv_rhs => rw [← List.map_id (List.range' start size)]
  apply List.map_congr_left
  intro n hn
  rw [List.mem_range'_1] at hn
  exact (hchain n hn.1 hn.2).number

variable (storage view txCount blockAt) in
structure Imported (height reached : ℕ) (s t : σ) : Prop where
  blocks : view t = importAll storage.number txCount (window blockAt height reached) (view s)
  ready : Ready (view t) reached

theorem imported_self {height : ℕ} {s : σ} (ready : Ready (view s) height) :
    Imported storage view txCount blockAt height height s s := by
  constructor
  · rw [window_self]
    rfl
  · exact ready

theorem HealthyStorage.forM_window (healthy : HealthyStorage storage view txCount) (first n : ℕ)
    {s : σ} (hchain : ∀ m, first < m → m ≤ first + n →
      ChainBlock storage txCount m (blockAt m)) (ready : Ready (view s) first) :
    Delivers ((window blockAt first (first + n)).forM (RethGnosis.importEraBlock storage)) s
      (fun _ t => Imported storage view txCount blockAt first (first + n) s t) := by
  induction n generalizing first s with
  | zero =>
    rw [Nat.add_zero, window_self]
    exact delivers_pure (imported_self ready)
  | succ n ih =>
    obtain ⟨hnumber, hall⟩ := hchain (first + 1) (by omega) (by omega)
    rw [window_succ]
    refine (healthy.importEraBlock ready hnumber).bind ?_
    intro _ t ht
    have hready := ready.importBlock hall
    rw [hnumber] at ht
    rw [← ht] at hready
    refine (ih (first + 1) (fun m hm hm' => hchain m (by omega) (by omega)) hready).mono ?_
    intro _ u hu
    have hlast : first + (n + 1) = first + 1 + n := by omega
    constructor
    · rw [window_succ, importAll_cons, hnumber, hu.blocks, ht]
    · rw [hlast]
      exact hu.ready

theorem Imported.trans {a b c : ℕ} {s t u : σ} (hab : a ≤ b) (hbc : b ≤ c)
    (h : Imported storage view txCount blockAt a b s t)
    (h' : Imported storage view txCount blockAt b c t u) :
    Imported storage view txCount blockAt a c s u := by
  constructor
  · rw [h'.blocks, h.blocks, ← importAll_append, window_append hab hbc]
  · exact h'.ready

theorem Imported.congr {a b : ℕ} {s s' t t' : σ} (hs : view s' = view s) (ht : view t' = view t)
    (h : Imported storage view txCount blockAt a b s t) :
    Imported storage view txCount blockAt a b s' t' := by
  constructor
  · rw [hs, ht, h.blocks]
  · rw [ht]
    exact h.ready

end Chain

/-! ### Files -/

section Files
variable {σ ε BH BB : Type} (storage : EraStorage σ ε BH BB) (view : σ → StoredBlocks BH BB)
  (txCount : BB → ℕ) (blockAt : ℕ → EraBlock BH BB)

/-- File `k` holds the 8192 blocks of the chain from `8192 k` on. -/
structure EraFile (k : ℕ) (era : EraMeta ε BH BB) : Prop where
  opened : ∃ tuples, era.opened = .ok tuples ∧ tuples.map decode =
    ((List.range' (ERA_STEP * k) ERA_STEP).map blockAt).map .ok
  markAsProcessed : era.markAsProcessed = .ok ()
  blocks : ∀ n, ERA_STEP * k ≤ n → n < ERA_STEP * k + ERA_STEP →
    ChainBlock storage txCount n (blockAt n)

def EraFiles : ℕ → List (Except ε (EraMeta ε BH BB)) → Prop
  | _, [] => True
  | k, file :: rest => (∃ era, file = .ok era ∧ EraFile storage txCount blockAt k era) ∧
      EraFiles (k + 1) rest

def fileEnd (k height target : ℕ) : ℕ :=
  max height (min target (ERA_STEP * k + (ERA_STEP - 1)))

theorem file_filter {k height : ℕ} (hlow : ERA_STEP * k ≤ height + 1)
    (hhigh : height + 1 < ERA_STEP * k + ERA_STEP) (target : ℕ) :
    (List.range' (ERA_STEP * k) ERA_STEP).filter
        (fun n => decide (height < n) && !pastTarget (some target) n) =
      List.range' (height + 1) (fileEnd k height target - height) := by
  have hend : height ≤ fileEnd k height target := Nat.le_max_left _ _
  have hsize : fileEnd k height target - height =
      fileEnd k height target + 1 - (height + 1) := by omega
  rw [hsize]
  refine filter_range_interval hlow (by omega) ?_ ?_ ?_ ?_
  · unfold fileEnd ERA_STEP at *
    omega
  · intro n hn
    rw [decide_eq_false (by omega), Bool.false_and]
  · intro n hn hn'
    have hbelow : ¬ target < n := by
      unfold fileEnd at hn'
      omega
    rw [decide_eq_true (by omega), pastTarget, decide_eq_false hbelow]
    rfl
  · intro n hn hn'
    have habove : target < n := by
      unfold fileEnd ERA_STEP at hn
      unfold ERA_STEP at hn'
      omega
    rw [pastTarget, decide_eq_true habove, Bool.not_true, Bool.and_false]

variable {storage view txCount blockAt}

theorem HealthyStorage.process (healthy : HealthyStorage storage view txCount) {k : ℕ}
    {era : EraMeta ε BH BB} (file : EraFile storage txCount blockAt k era) {height : ℕ} {s : σ}
    (ready : Ready (view s) height) (hlow : ERA_STEP * k ≤ height + 1)
    (hhigh : height + 1 < ERA_STEP * k + ERA_STEP) (target : ℕ) :
    Delivers (process storage era ⟨.included height, .included target⟩) s (fun reached t =>
      reached = fileEnd k height target ∧
        Imported storage view txCount blockAt height reached s t) := by
  obtain ⟨tuples, hopened, hdecode⟩ := file.opened
  have hitems : era.items tuples = ((List.range' (ERA_STEP * k) ERA_STEP).map blockAt).map .ok := by
    unfold EraMeta.items
    rw [file.markAsProcessed, hdecode]
    exact List.append_nil _
  have hnumbers := numbers_eq_range file.blocks
  have hincreasing : (numbers storage
      ((List.range' (ERA_STEP * k) ERA_STEP).map blockAt)).Pairwise (· < ·) := by
    rw [hnumbers]
    exact List.pairwise_lt_range'
  have hend : height ≤ fileEnd k height target := Nat.le_max_left _ _
  have hselected : importedBlocks storage (some target)
      (((List.range' (ERA_STEP * k) ERA_STEP).map blockAt).map .ok) height =
        window blockAt height (fileEnd k height target) := by
    rw [importedBlocks_eq_filter storage _ hincreasing, List.filter_map, window,
      ← file_filter hlow hhigh target]
    refine congrArg (List.map blockAt) (List.filter_congr ?_)
    intro n hn
    rw [List.mem_range'_1] at hn
    change (decide (height < storage.number (blockAt n).1) &&
      !pastTarget (some target) (storage.number (blockAt n).1)) = _
    rw [(file.blocks n hn.1 hn.2).number]
  have hchain : ∀ n, height < n → n ≤ fileEnd k height target →
      ChainBlock storage txCount n (blockAt n) := by
    intro n hn hn'
    refine file.blocks n (by omega) ?_
    unfold fileEnd ERA_STEP at *
    omega
  have hlast : (numbers storage (window blockAt height (fileEnd k height target))).getLastD height =
      fileEnd k height target := by
    unfold window
    rw [numbers_eq_range (fun n hn hn' => hchain n (by omega) (by omega)), range_getLastD,
      Nat.add_sub_cancel' hend]
  have hrun := @HealthyStorage.forM_window σ ε BH BB storage view txCount blockAt healthy height
    (fileEnd k height target - height) s
  rw [Nat.add_sub_cancel' hend] at hrun
  rw [RethGnosis.process, hopened]
  change Delivers (processIter storage (era.items tuples) _) s _
  rw [hitems, processIter, processItems_ok_eq]
  change Delivers (do
    (importedBlocks storage (some target) _ height).forM (RethGnosis.importEraBlock storage)
    pure ((numbers storage (importedBlocks storage (some target) _ height)).getLastD height)) s _
  rw [hselected, hlast]
  exact (hrun hchain ready).bind (fun _ t ht => delivers_pure ⟨rfl, ht⟩)

theorem HealthyStorage.importFile (healthy : HealthyStorage storage view txCount) {k : ℕ}
    {era : EraMeta ε BH BB} (file : EraFile storage txCount blockAt k era) {height : ℕ} {s : σ}
    (ready : Ready (view s) height) (hlow : ERA_STEP * k ≤ height + 1)
    (hhigh : height + 1 < ERA_STEP * k + ERA_STEP) (maxHeight : Option ℕ) :
    Delivers (importFile storage maxHeight (.ok era) height) s (fun reached t =>
      reached = fileEnd k height (rangeEnd maxHeight height).1 ∧
        Imported storage view txCount blockAt height reached s t) := by
  refine ((healthy.databaseProviderRw s).adaptExcept _).bind ?_
  intro _ s₁ h₁
  refine ((healthy.latestWriter s₁ .Headers).adaptExcept _).bind ?_
  intro _ s₂ h₂
  refine ((healthy.latestWriter s₂ .Receipts).adaptExcept _).bind ?_
  intro _ s₃ h₃
  have hview : view s₃ = view s := by rw [h₃, h₂, h₁]
  have ready₃ : Ready (view s₃) height := by
    rw [hview]
    exact ready
  refine (healthy.process file ready₃ hlow hhigh _).bind ?_
  rintro reached s₄ ⟨hreached, h₄⟩
  refine ((healthy.saveStageCheckpoints s₄ _ _ _ _).adaptExcept _).bind ?_
  intro _ s₅ h₅
  refine ((healthy.commit s₅).adaptExcept _).bind ?_
  intro _ t ht
  exact delivers_pure ⟨hreached, h₄.congr hview.symm (ht.trans h₅)⟩

/-- Once the height is the end of a file, each file ends at its range or at the target. -/
theorem HealthyStorage.importFiles_aligned (healthy : HealthyStorage storage view txCount)
    {maxHeight : ℕ} {files : List (Except ε (EraMeta ε BH BB))} {k : ℕ}
    (hfiles : EraFiles storage txCount blockAt k files) {height : ℕ} {s : σ}
    (ready : Ready (view s) height) (hheight : height + 1 = ERA_STEP * k)
    (hmax : height ≤ maxHeight) (hcover : maxHeight < ERA_STEP * (k + files.length))
    (hu64 : ERA_STEP * (k + files.length) ≤ 2 ^ 64) :
    Delivers (importFiles storage (some maxHeight) files height) s (fun reached t =>
      reached = maxHeight ∧ Imported storage view txCount blockAt height reached s t) := by
  induction files generalizing k height s with
  | nil =>
    have hreached : height = maxHeight := by
      rw [List.length_nil, Nat.add_zero] at hcover
      omega
    exact delivers_pure ⟨hreached, imported_self ready⟩
  | cons file rest ih =>
    obtain ⟨⟨era, rfl, hfile⟩, hrest⟩ := hfiles
    rw [List.length_cons] at hcover hu64
    have hlast : (height + ERA_STEP) % 2 ^ 64 = height + ERA_STEP := by
      apply Nat.mod_eq_of_lt
      unfold ERA_STEP at *
      omega
    refine (healthy.importFile hfile ready (by omega) (by unfold ERA_STEP at *; omega) _).bind ?_
    rintro reached t ⟨hreached, himported⟩
    by_cases hstop : maxHeight < height + ERA_STEP
    · have hrange : rangeEnd (some maxHeight) height = (maxHeight, true) := by
        unfold rangeEnd
        rw [hlast]
        exact if_pos hstop
      rw [hrange] at hreached ⊢
      have hmaxHeight : reached = maxHeight := by
        unfold fileEnd ERA_STEP at *
        omega
      exact delivers_pure ⟨hmaxHeight, himported⟩
    · have hrange : rangeEnd (some maxHeight) height = (height + ERA_STEP, false) := by
        unfold rangeEnd
        rw [hlast]
        exact if_neg hstop
      rw [hrange] at hreached ⊢
      have hend : reached = height + ERA_STEP := by
        unfold fileEnd ERA_STEP at *
        omega
      refine (ih hrest himported.ready ?_ ?_ ?_ ?_).mono ?_
      · unfold ERA_STEP at *
        omega
      · omega
      · rw [show k + 1 + rest.length = k + (rest.length + 1) by omega]
        exact hcover
      · rw [show k + 1 + rest.length = k + (rest.length + 1) by omega]
        exact hu64
      · rintro _ u ⟨hmaxHeight, hu⟩
        exact ⟨hmaxHeight, himported.trans (by omega) (by omega) hu⟩

/-- Where an import from `height` with the target `maxHeight` ends: in the first file if its range
reaches past the target, and nowhere else before the target. -/
def reachedHeight (height maxHeight : ℕ) : ℕ :=
  if 2 ^ 64 ≤ height + ERA_STEP then height
  else if maxHeight < height + ERA_STEP then
    min maxHeight (ERA_STEP * ((height + 1) / ERA_STEP) + (ERA_STEP - 1))
  else maxHeight

theorem HealthyStorage.importFiles (healthy : HealthyStorage storage view txCount)
    {height maxHeight : ℕ} {files : List (Except ε (EraMeta ε BH BB))}
    (hfiles : EraFiles storage txCount blockAt ((height + 1) / ERA_STEP) files) {s : σ}
    (ready : Ready (view s) height) (hmax : height < maxHeight)
    (hcover : maxHeight < ERA_STEP * ((height + 1) / ERA_STEP + files.length))
    (hu64 : ERA_STEP * ((height + 1) / ERA_STEP + files.length) ≤ 2 ^ 64) :
    Delivers (importFiles storage (some maxHeight) files height) s (fun reached t =>
      reached = reachedHeight height maxHeight ∧
        Imported storage view txCount blockAt height reached s t) := by
  cases files with
  | nil =>
    rw [List.length_nil] at hcover
    unfold ERA_STEP at hcover
    omega
  | cons file rest =>
    obtain ⟨⟨era, rfl, hfile⟩, hrest⟩ := hfiles
    rw [List.length_cons] at hcover hu64
    refine (healthy.importFile hfile ready (by unfold ERA_STEP; omega)
      (by unfold ERA_STEP; omega) _).bind ?_
    rintro reached t ⟨hreached, himported⟩
    by_cases hwrap : 2 ^ 64 ≤ height + ERA_STEP
    · -- The range wraps around and ends below the height; there is no further file.
      have hrange : rangeEnd (some maxHeight) height = (height + ERA_STEP - 2 ^ 64, false) := by
        have hlast : (height + ERA_STEP) % 2 ^ 64 = height + ERA_STEP - 2 ^ 64 := by
          unfold ERA_STEP at *
          omega
        unfold rangeEnd
        rw [hlast]
        exact if_neg (by unfold ERA_STEP at *; omega)
      have hnil : rest = [] := by
        apply List.eq_nil_of_length_eq_zero
        unfold ERA_STEP at *
        omega
      have hend : reached = reachedHeight height maxHeight := by
        rw [hreached, hrange, reachedHeight, if_pos hwrap]
        unfold fileEnd ERA_STEP at *
        omega
      rw [hrange, hnil]
      exact delivers_pure ⟨hend, himported⟩
    · have hlast : (height + ERA_STEP) % 2 ^ 64 = height + ERA_STEP :=
        Nat.mod_eq_of_lt (by omega)
      by_cases hstop : maxHeight < height + ERA_STEP
      · have hrange : rangeEnd (some maxHeight) height = (maxHeight, true) := by
          unfold rangeEnd
          rw [hlast]
          exact if_pos hstop
        have hend : reached = reachedHeight height maxHeight := by
          rw [hreached, hrange, reachedHeight, if_neg hwrap, if_pos hstop]
          unfold fileEnd ERA_STEP at *
          omega
        rw [hrange]
        exact delivers_pure ⟨hend, himported⟩
      · have hrange : rangeEnd (some maxHeight) height = (height + ERA_STEP, false) := by
          unfold rangeEnd
          rw [hlast]
          exact if_neg hstop
        have hend : reached + 1 = ERA_STEP * ((height + 1) / ERA_STEP + 1) := by
          rw [hreached, hrange]
          unfold fileEnd ERA_STEP at *
          omega
        have hlength : (height + 1) / ERA_STEP + 1 + rest.length =
            (height + 1) / ERA_STEP + (rest.length + 1) := by omega
        rw [hrange]
        refine (healthy.importFiles_aligned hrest himported.ready hend ?_ ?_ ?_).mono ?_
        · unfold ERA_STEP at *
          omega
        · rw [hlength]
          exact hcover
        · rw [hlength]
          exact hu64
        · rintro _ u ⟨hmaxHeight, hu⟩
          refine ⟨?_, himported.trans ?_ ?_ hu⟩
          · rw [reachedHeight, if_neg hwrap, if_neg hstop]
            exact hmaxHeight
          · unfold ERA_STEP at *
            omega
          · unfold ERA_STEP at *
            omega

theorem HealthyStorage.eraImport (healthy : HealthyStorage storage view txCount)
    {height maxHeight : ℕ} {files : List (Except ε (EraMeta ε BH BB))}
    (hfiles : EraFiles storage txCount blockAt ((height + 1) / ERA_STEP) files) {s : σ}
    (ready : Ready (view s) height) (hmax : height < maxHeight)
    (hcover : maxHeight < ERA_STEP * ((height + 1) / ERA_STEP + files.length))
    (hu64 : ERA_STEP * ((height + 1) / ERA_STEP + files.length) ≤ 2 ^ 64) :
    Delivers (eraImport storage (some maxHeight) files) s (fun reached t =>
      reached = reachedHeight height maxHeight ∧
        Imported storage view txCount blockAt height reached s t) := by
  have hstart : (storage.highestStaticFileBlock s .Headers).getD 0 = height := by
    rw [healthy.height, ready.height]
    rfl
  unfold RethGnosis.eraImport
  apply delivers_get_bind
  rw [hstart]
  refine (healthy.importFiles hfiles ready hmax hcover hu64).bind ?_
  rintro reached s₁ ⟨hreached, h₁⟩
  refine ((healthy.databaseProviderRw s₁).adaptExcept _).bind ?_
  intro _ s₂ h₂
  refine ((healthy.buildIndex s₂).adaptExcept _).bind ?_
  intro _ s₃ h₃
  refine ((healthy.commit s₃).adaptExcept _).bind ?_
  intro _ t ht
  exact delivers_pure ⟨hreached, h₁.congr rfl (ht.trans (h₃.trans h₂))⟩

variable (storage view blockAt) in
def ReachesTarget (height maxHeight : ℕ) (files : List (Except ε (EraMeta ε BH BB))) (s : σ) :
    Prop :=
  ∃ t, eraImport storage (some maxHeight) files s = .ok maxHeight t ∧
    (view t).headers = (view s).headers ++
      (window blockAt height maxHeight).map (fun block => block.1) ∧
    (view t).bodies = (view s).bodies ++
      (window blockAt height maxHeight).map (fun block => (storage.number block.1, block.2.1))

theorem importAll_headers (blocks : List (EraBlock BH BB)) (stored : StoredBlocks BH BB) :
    (importAll storage.number txCount blocks stored).headers =
      stored.headers ++ blocks.map (fun block => block.1) := by
  induction blocks generalizing stored with
  | nil => exact (List.append_nil _).symm
  | cons block rest ih =>
    rw [importAll_cons, ih, importBlock_headers, List.append_assoc]
    rfl

theorem importAll_bodies (blocks : List (EraBlock BH BB)) (stored : StoredBlocks BH BB) :
    (importAll storage.number txCount blocks stored).bodies =
      stored.bodies ++ blocks.map (fun block => (storage.number block.1, block.2.1)) := by
  induction blocks generalizing stored with
  | nil => exact (List.append_nil _).symm
  | cons block rest ih =>
    rw [importAll_cons, ih, importBlock_bodies, List.append_assoc]
    rfl

/-- The import reaches its target unless the target lies in the second file, within 8192 blocks of
the start. -/
theorem reachesTarget_iff (healthy : HealthyStorage storage view txCount) {height maxHeight : ℕ}
    {files : List (Except ε (EraMeta ε BH BB))}
    (hfiles : EraFiles storage txCount blockAt ((height + 1) / ERA_STEP) files) {s : σ}
    (ready : Ready (view s) height) (hmax : height < maxHeight)
    (hcover : maxHeight < ERA_STEP * ((height + 1) / ERA_STEP + files.length))
    (hu64 : ERA_STEP * ((height + 1) / ERA_STEP + files.length) ≤ 2 ^ 64) :
    ReachesTarget storage view blockAt height maxHeight files s ↔
      height + ERA_STEP < 2 ^ 64 ∧
        (maxHeight ≤ ERA_STEP * ((height + 1) / ERA_STEP) + (ERA_STEP - 1) ∨
          height + ERA_STEP ≤ maxHeight) := by
  obtain ⟨reached, t, hrun, hreached, himported⟩ :=
    healthy.eraImport hfiles ready hmax hcover hu64
  have hexact : reached = maxHeight ↔ height + ERA_STEP < 2 ^ 64 ∧
      (maxHeight ≤ ERA_STEP * ((height + 1) / ERA_STEP) + (ERA_STEP - 1) ∨
        height + ERA_STEP ≤ maxHeight) := by
    rw [hreached, reachedHeight]
    split_ifs <;> omega
  rw [← hexact]
  constructor
  · rintro ⟨t', hrun', -, -⟩
    exact (EStateM.Result.ok.inj (hrun.symm.trans hrun')).1
  · rintro rfl
    refine ⟨t, hrun, ?_, ?_⟩
    · rw [himported.blocks, importAll_headers]
    · rw [himported.blocks, importAll_bodies]

end Files

section Ledger

theorem ledger_healthy : HealthyStorage ledger id id := by
  constructor
  · exact fun s => rfl
  · exact fun s number idx hidx => congrArg Except.ok hidx
  · intro s header hash n hheight hnumber
    refine ⟨(), _, ?_, rfl⟩
    change s.height = some n at hheight
    rw [ledger_appendHeader, hheight]
    exact if_pos hnumber
  · exact fun s number body hheight => ⟨(), _, rfl, rfl⟩
  · intro s i receipt hnext
    refine ⟨(), _, ?_, rfl⟩
    rw [ledger_appendReceipt]
    exact if_pos hnext
  · intro s n hheight
    refine ⟨(), _, ?_, rfl⟩
    change s.receiptsHeight = some n at hheight
    rw [ledger_incrementBlock, hheight]
    exact if_pos rfl
  · exact fun s hash number => ⟨(), s, rfl, rfl⟩
  · exact fun s => ⟨(), s, rfl, rfl⟩
  · exact fun s segment => ⟨(), s, rfl, rfl⟩
  · exact fun s start reached processed total => ⟨(), s, rfl, rfl⟩
  · exact fun s => ⟨(), s, rfl, rfl⟩
  · exact fun s => ⟨(), s, rfl, rfl⟩

def emptyBlock (n : ℕ) : EraBlock ℕ ℕ := (n, 0, [])

def emptyFile (k : ℕ) : EraMeta String ℕ ℕ where
  opened := .ok ((List.range' (ERA_STEP * k) ERA_STEP).map
    (fun n => .ok ⟨.ok n, .ok 0, .ok []⟩))
  markAsProcessed := .ok ()

def emptyFiles (k n : ℕ) : List (Except String (EraMeta String ℕ ℕ)) :=
  (List.range' k n).map (fun k => .ok (emptyFile k))

def ledgerAt (height : ℕ) : StoredBlocks ℕ ℕ :=
  importAll ledger.number id (window emptyBlock 0 height) genesisLedger

theorem chainBlock_emptyBlock (n : ℕ) : ChainBlock ledger id n (emptyBlock n) := ⟨rfl, rfl⟩

theorem eraFile_emptyFile (k : ℕ) : EraFile ledger id emptyBlock k (emptyFile k) := by
  constructor
  · refine ⟨_, rfl, ?_⟩
    rw [List.map_map, List.map_map]
    rfl
  · rfl
  · exact fun n _ _ => chainBlock_emptyBlock n

theorem eraFiles_emptyFiles (k n : ℕ) : EraFiles ledger id emptyBlock k (emptyFiles k n) := by
  induction n generalizing k with
  | zero => trivial
  | succ n ih => exact ⟨⟨emptyFile k, rfl, eraFile_emptyFile k⟩, ih (k + 1)⟩

theorem length_emptyFiles (k n : ℕ) : (emptyFiles k n).length = n := by
  unfold emptyFiles
  rw [List.length_map, List.length_range']

theorem ready_ledgerAt (height : ℕ) : Ready (id (ledgerAt height)) height := by
  have ready : Ready genesisLedger 0 := ⟨rfl, rfl, rfl⟩
  obtain ⟨_, t, -, ht⟩ := ledger_healthy.forM_window 0 height (s := genesisLedger)
    (fun m _ _ => chainBlock_emptyBlock m) ready
  rw [Nat.zero_add] at ht
  have hready := ht.ready
  rw [ht.blocks] at hready
  exact hready

/-- From height 100 the target 8200 is in the second file. The range of the first one reaches past
the target, and the second is not opened. -/
theorem midFile_stopsEarly :
    EraFiles ledger id emptyBlock ((100 + 1) / ERA_STEP) (emptyFiles 0 2) ∧
    (∃ t, eraImport ledger (some 8200) (emptyFiles 0 2) (ledgerAt 100) = .ok 8191 t ∧
      t.height = some 8191) ∧
    ¬ ReachesTarget ledger id emptyBlock 100 8200 (emptyFiles 0 2) (ledgerAt 100) := by
  have hfirst : (100 + 1) / ERA_STEP = 0 := by decide
  have hfiles : EraFiles ledger id emptyBlock ((100 + 1) / ERA_STEP) (emptyFiles 0 2) := by
    rw [hfirst]
    exact eraFiles_emptyFiles 0 2
  have hcover : 8200 < ERA_STEP * ((100 + 1) / ERA_STEP + (emptyFiles 0 2).length) := by
    rw [length_emptyFiles]
    decide
  have hu64 : ERA_STEP * ((100 + 1) / ERA_STEP + (emptyFiles 0 2).length) ≤ 2 ^ 64 := by
    rw [length_emptyFiles]
    decide
  obtain ⟨reached, t, hrun, hreached, himported⟩ :=
    ledger_healthy.eraImport hfiles (ready_ledgerAt 100) (by decide) hcover hu64
  have hend : reachedHeight 100 8200 = 8191 := by decide
  rw [hreached, hend] at hrun himported
  refine ⟨hfiles, ⟨t, hrun, himported.ready.height⟩, ?_⟩
  rintro ⟨t', hrun', -, -⟩
  exact absurd (EStateM.Result.ok.inj (hrun.symm.trans hrun')).1 (by decide)

theorem reachesTarget_iff_oneFile :
    ReachesTarget ledger id emptyBlock 100 8000 (emptyFiles 0 1) (ledgerAt 100) := by
  have hfirst : (100 + 1) / ERA_STEP = 0 := by decide
  have hfiles : EraFiles ledger id emptyBlock ((100 + 1) / ERA_STEP) (emptyFiles 0 1) := by
    rw [hfirst]
    exact eraFiles_emptyFiles 0 1
  have hcover : 8000 < ERA_STEP * ((100 + 1) / ERA_STEP + (emptyFiles 0 1).length) := by
    rw [length_emptyFiles]
    decide
  have hu64 : ERA_STEP * ((100 + 1) / ERA_STEP + (emptyFiles 0 1).length) ≤ 2 ^ 64 := by
    rw [length_emptyFiles]
    decide
  exact (reachesTarget_iff ledger_healthy hfiles (ready_ledgerAt 100) (by decide) hcover
    hu64).mpr (by decide)

end Ledger

end RethGnosis
