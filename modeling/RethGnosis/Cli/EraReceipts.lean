import RethGnosis.Cli.StoredBlocks

set_option autoImplicit false

/-!
# Receipts and transactions of imported blocks

Only the number of the next receipt ties the receipts of a block to its transactions: a
block with receipts after it has as many as it and the blocks up to there have transactions.
-/
namespace RethGnosis
open Fallible StoredBlocks

section Chain
variable {BH BB : Type} (number : BH → ℕ) (txCount : BB → ℕ)

def importAll (blocks : List (EraBlock BH BB)) (stored : StoredBlocks BH BB) :
    StoredBlocks BH BB :=
  blocks.foldl (fun stored block =>
    stored.importBlock (number block.1) (txCount block.2.1) block) stored

def Chained : List (EraBlock BH BB) → StoredBlocks BH BB → Prop
  | [], _ => True
  | block :: rest, stored =>
    (block.2.2 ≠ [] → stored.nextReceipt = stored.nextTx) ∧
      Chained rest (stored.importBlock (number block.1) (txCount block.2.1) block)

def HasAllReceipts (block : EraBlock BH BB) : Prop := block.2.2.length = txCount block.2.1

def AlignedIn (stored : StoredBlocks BH BB) (block : EraBlock BH BB) : Prop :=
  HasAllReceipts txCount block ∧ ∃ idx, stored.indices (number block.1) = some idx ∧
    idx.txCount = txCount block.2.1 ∧ ∀ i, i < txCount block.2.1 →
      stored.receiptAt (idx.firstTxNum + i) = (block.2.2[i]?).map ReceiptWithBloom.receipt

/-- No block with transactions comes without receipts, and the last block with receipts has them
all. -/
structure ReceiptsComplete (blocks : List (EraBlock BH BB)) : Prop where
  nonempty : ∀ block ∈ blocks, 0 < txCount block.2.1 → block.2.2 ≠ []
  last : ∀ block, (blocks.filter (fun block => !block.2.2.isEmpty)).getLast? = some block →
    HasAllReceipts txCount block

variable {number txCount} {blocks : List (EraBlock BH BB)} {stored : StoredBlocks BH BB}

theorem importAll_cons (block : EraBlock BH BB) (rest : List (EraBlock BH BB)) :
    importAll number txCount (block :: rest) stored =
      importAll number txCount rest
        (stored.importBlock (number block.1) (txCount block.2.1) block) := rfl

theorem ReceiptsComplete.tail {block : EraBlock BH BB} {rest : List (EraBlock BH BB)}
    (h : ReceiptsComplete txCount (block :: rest)) : ReceiptsComplete txCount rest := by
  constructor
  · exact fun later hlater => h.nonempty later (List.mem_cons_of_mem block hlater)
  · intro later hlater
    apply h.last
    cases hempty : block.2.2.isEmpty with
    | true =>
      rw [List.filter_cons_of_neg (by rw [hempty]; decide)]
      exact hlater
    | false =>
      rw [List.filter_cons_of_pos (by rw [hempty]; decide), List.getLast?_cons, hlater]
      rfl

theorem Chained.nextReceipt_eq (h : Chained number txCount blocks stored)
    (hall : ∀ block ∈ blocks, HasAllReceipts txCount block)
    (hsome : ∃ block ∈ blocks, block.2.2 ≠ []) : stored.nextReceipt = stored.nextTx := by
  induction blocks generalizing stored with
  | nil =>
    obtain ⟨block, hmem, -⟩ := hsome
    cases hmem
  | cons block rest ih =>
    obtain ⟨hblock, hrest⟩ := List.forall_mem_cons.mp hall
    by_cases hempty : block.2.2 = []
    · have hcount : txCount block.2.1 = 0 := by
        rw [← hblock, hempty, List.length_nil]
      obtain ⟨later, hmem, hne⟩ := hsome
      have hlater : later ∈ rest := by
        rcases List.mem_cons.mp hmem with rfl | hlater
        · contradiction
        · exact hlater
      have hsame := ih h.2 hrest ⟨later, hlater, hne⟩
      rw [importBlock_nextReceipt_nil _ _ _ _ hempty, importBlock_nextTx, hcount] at hsame
      exact hsame
    · exact h.1 hempty

/-- By induction from the end of the list: the blocks behind have all their receipts, so the first
of them with receipts shows whether this block has. -/
theorem Chained.hasAllReceipts (h : Chained number txCount blocks stored)
    (hcomplete : ReceiptsComplete txCount blocks) :
    ∀ block ∈ blocks, HasAllReceipts txCount block := by
  induction blocks generalizing stored with
  | nil => exact fun _ hmem => absurd hmem List.not_mem_nil
  | cons block rest ih =>
    have hrest := ih h.2 hcomplete.tail
    refine List.forall_mem_cons.mpr ⟨?_, hrest⟩
    by_cases hempty : block.2.2 = []
    · have hcount : ¬ 0 < txCount block.2.1 :=
        fun hpos => hcomplete.nonempty block List.mem_cons_self hpos hempty
      unfold HasAllReceipts
      rw [hempty, List.length_nil]
      omega
    · by_cases hsome : ∃ later ∈ rest, later.2.2 ≠ []
      · have hnext := h.2.nextReceipt_eq hrest hsome
        rw [importBlock_nextReceipt _ _ _ _ hempty, importBlock_nextTx] at hnext
        unfold HasAllReceipts
        omega
      · apply hcomplete.last
        have hnone : rest.filter (fun block => !block.2.2.isEmpty) = [] := by
          rw [List.filter_eq_nil_iff]
          intro later hlater hfound
          refine hsome ⟨later, hlater, ?_⟩
          rw [Bool.not_eq_true', List.isEmpty_eq_false_iff] at hfound
          exact hfound
        rw [List.filter_cons_of_pos (by simpa using hempty), hnone]
        rfl

theorem importAll_indices {n : ℕ} (hn : n ∉ blocks.map (fun block => number block.1)) :
    (importAll number txCount blocks stored).indices n = stored.indices n := by
  induction blocks generalizing stored with
  | nil => rfl
  | cons block rest ih =>
    rw [List.map_cons, List.mem_cons, not_or] at hn
    rw [importAll_cons, ih hn.2, importBlock_indices, Function.update_of_ne hn.1]

theorem importAll_receiptAt {k : ℕ} (hk : k < stored.nextTx) :
    (importAll number txCount blocks stored).receiptAt k = stored.receiptAt k := by
  induction blocks generalizing stored with
  | nil => rfl
  | cons block rest ih =>
    rw [importAll_cons, ih (by rw [importBlock_nextTx]; omega), importBlock_receiptAt,
      if_neg (by omega)]

theorem importAll_aligned (hall : ∀ block ∈ blocks, HasAllReceipts txCount block)
    (hincreasing : (blocks.map (fun block => number block.1)).Pairwise (· < ·)) :
    ∀ block ∈ blocks, AlignedIn number txCount (importAll number txCount blocks stored) block := by
  induction blocks generalizing stored with
  | nil => exact fun _ hmem => absurd hmem List.not_mem_nil
  | cons block rest ih =>
    obtain ⟨hblock, hrest⟩ := List.forall_mem_cons.mp hall
    obtain ⟨hbelow, hlater⟩ := List.pairwise_cons.mp hincreasing
    rw [importAll_cons]
    refine List.forall_mem_cons.mpr ⟨⟨hblock, ?_⟩, ih hrest hlater⟩
    have hnew : number block.1 ∉ rest.map (fun block => number block.1) :=
      fun hmem => Nat.lt_irrefl _ (hbelow _ hmem)
    refine ⟨⟨stored.nextTx, txCount block.2.1⟩, ?_, rfl, ?_⟩
    · rw [importAll_indices hnew, importBlock_indices, Function.update_self]
    · intro i hi
      have hlength : block.2.2.length = txCount block.2.1 := hblock
      rw [importAll_receiptAt (by rw [importBlock_nextTx]; dsimp only; omega),
        importBlock_receiptAt]
      dsimp only
      rw [if_pos (by omega), Nat.add_sub_cancel_left]

end Chain

section Import
variable {σ ε BH BB : Type} {storage : EraStorage σ ε BH BB} {view : σ → StoredBlocks BH BB}
  {txCount : BB → ℕ}

theorem StorageLaws.forM_ok (h : StorageLaws storage view txCount)
    {blocks : List (EraBlock BH BB)} {s t : σ}
    (hrun : blocks.forM (importEraBlock storage) s = .ok () t) :
    Chained storage.number txCount blocks (view s) ∧
      view t = importAll storage.number txCount blocks (view s) := by
  induction blocks generalizing s with
  | nil =>
    cases hrun
    exact ⟨trivial, rfl⟩
  | cons block rest ih =>
    obtain ⟨_, u, hblock, hrest⟩ := bind_ok.mp hrun
    obtain ⟨hnext, hview⟩ := h.importBlock_ok hblock
    obtain ⟨hchained, ht⟩ := ih hrest
    rw [hview] at hchained ht
    exact ⟨⟨hnext, hchained⟩, ht⟩

/-- After a successful `process_iter` the receipts of the imported blocks are aligned with their
transactions exactly if no block lacks them altogether and the last one with any has them all. -/
theorem receipts_aligned_iff (h : StorageLaws storage view txCount)
    {items : List (Except ε (EraBlock BH BB))} {range : BlockRange} {s t : σ} {height : ℕ}
    (hrun : processIter storage items range s = .ok height t) :
    (∀ block ∈ importedBlocks storage range.endBound.target items
        range.startBound.lastHeaderNumber, AlignedIn storage.number txCount (view t) block) ↔
      ReceiptsComplete txCount (importedBlocks storage range.endBound.target items
        range.startBound.lastHeaderNumber) := by
  obtain ⟨hchained, hview⟩ := h.forM_ok (processItems_ok hrun)
  constructor
  · intro haligned
    constructor
    · intro block hblock hpos hempty
      have hlength : block.2.2.length = txCount block.2.1 := (haligned block hblock).1
      rw [hempty, List.length_nil] at hlength
      omega
    · intro block hlast
      exact (haligned block (List.mem_of_mem_filter (List.mem_of_getLast? hlast))).1
  · intro hcomplete
    rw [hview]
    exact importAll_aligned (hchained.hasAllReceipts hcomplete) (importedBlocks_increasing _ _)

end Import

section Ledger

def someReceipt : ReceiptWithBloom := ⟨⟨0, true, 21000, []⟩, 0⟩

/-- A block with one transaction and two receipts, and one with two transactions and one receipt:
each is imported as the last block, and the receipts do not fit. -/
theorem lastBlock_unchecked :
    (∃ t, processIter ledger [.ok (1, 1, [someReceipt, someReceipt])] ⟨.included 0, .included 9⟩
        genesisLedger = .ok 1 t ∧ t.nextReceipt = 2 ∧ t.nextTx = 1 ∧
      ¬ AlignedIn ledger.number id t (1, 1, [someReceipt, someReceipt])) ∧
    ∃ t, processIter ledger [.ok (1, 2, [someReceipt])] ⟨.included 0, .included 9⟩
        genesisLedger = .ok 1 t ∧ t.nextReceipt = 1 ∧ t.nextTx = 2 ∧
      ¬ AlignedIn ledger.number id t (1, 2, [someReceipt]) := by
  refine ⟨⟨_, rfl, rfl, rfl, fun h => ?_⟩, _, rfl, rfl, rfl, fun h => ?_⟩
  · exact absurd h.1 (by unfold HasAllReceipts; decide)
  · exact absurd h.1 (by unfold HasAllReceipts; decide)

theorem receipts_aligned_iff_twoBlocks :
    ∃ t, processIter ledger [.ok (1, 1, [someReceipt]), .ok (2, 0, [])]
        ⟨.included 0, .included 9⟩ genesisLedger = .ok 2 t ∧
      ((∀ block ∈ [((1, 1, [someReceipt]) : EraBlock ℕ ℕ), (2, 0, [])],
          AlignedIn ledger.number id t block) ↔
        ReceiptsComplete id [((1, 1, [someReceipt]) : EraBlock ℕ ℕ), (2, 0, [])]) := by
  have hrun : processIter ledger [.ok (1, 1, [someReceipt]), .ok (2, 0, [])]
      ⟨.included 0, .included 9⟩ genesisLedger = .ok 2 _ := rfl
  exact ⟨_, hrun, receipts_aligned_iff ledger_laws hrun⟩

end Ledger

end RethGnosis
