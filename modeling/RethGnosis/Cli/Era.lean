import RethGnosis.Library.Fallible
import RethGnosis.Primitives

set_option autoImplicit false

/-!
# Import of era files

`cli/era.rs`: the loop over the files of a stream, and within a file the loop over its
blocks. The storage (database, static files, ETL collector) is a parameter.
-/
namespace RethGnosis
open Fallible

structure ReceiptWithBloom where
  receipt : Receipt
  logsBloom : BitVec 2048

abbrev EraBlock (BH BB : Type) := BH × BB × List ReceiptWithBloom

structure BlockTuple (ε BH BB : Type) where
  header : Except ε BH
  body : Except ε BB
  receipts : Except ε (List ReceiptWithBloom)

/-- A downloaded file: what reading it gives, and what `mark_as_processed` answers. -/
structure EraMeta (ε BH BB : Type) where
  opened : Except ε (List (Except ε (BlockTuple ε BH BB)))
  markAsProcessed : Except ε Unit

structure StoredBlockBodyIndices where
  firstTxNum : ℕ
  txCount : ℕ
deriving DecidableEq

inductive StaticFileSegment where
  | Headers | Receipts
deriving DecidableEq

inductive ImportFault (ε : Type) where
  | error (e : ε)
  | panic (message : String)

abbrev Import (σ ε : Type) := EStateM (ImportFault ε) σ

structure EraStorage (σ ε BH BB : Type) where
  number : BH → ℕ
  hashSlow : BH → B256
  highestStaticFileBlock : σ → StaticFileSegment → Option ℕ
  databaseProviderRw : EStateM ε σ Unit
  latestWriter : StaticFileSegment → EStateM ε σ Unit
  appendHeader : BH → B256 → EStateM ε σ Unit
  appendBlockBodies : List (ℕ × Option BB) → EStateM ε σ Unit
  blockBodyIndices : σ → ℕ → Except ε (Option StoredBlockBodyIndices)
  appendReceipt : ℕ → Receipt → EStateM ε σ Unit
  incrementBlock : ℕ → EStateM ε σ Unit
  insertHash : B256 → ℕ → EStateM ε σ Unit
  saveStageCheckpoints : (start reached processed total : ℕ) → EStateM ε σ Unit
  commit : EStateM ε σ Unit
  buildIndex : EStateM ε σ Unit

inductive Bound where
  | included (number : ℕ)
  | excluded (number : ℕ)
  | unbounded
deriving DecidableEq

structure BlockRange where
  startBound : Bound
  endBound : Bound
deriving DecidableEq

def ERA_STEP : ℕ := 8192

section Blocks
variable {σ ε BH BB : Type} (storage : EraStorage σ ε BH BB)

/-- `m?` -/
def attempt {α : Type} (m : EStateM ε σ α) : Import σ ε α := EStateM.adaptExcept .error m

def decode (block : Except ε (BlockTuple ε BH BB)) : Except ε (EraBlock BH BB) := do
  let block ← block
  let header ← block.header
  let body ← block.body
  let receipts ← block.receipts
  pure (header, body, receipts)

/-- What a `ProcessIter` yields: the decoded blocks, and an error if the file cannot be marked as
processed after the last of them. -/
def EraMeta.items (era : EraMeta ε BH BB) (blocks : List (Except ε (BlockTuple ε BH BB))) :
    List (Except ε (EraBlock BH BB)) :=
  blocks.map decode ++
    match era.markAsProcessed with
    | .ok _ => []
    | .error e => [.error e]

def appendReceipts : ℕ → List ReceiptWithBloom → Import σ ε Unit
  | _, [] => pure ()
  | i, receipt :: rest => do
    attempt (storage.appendReceipt i receipt.receipt)
    appendReceipts (i + 1) rest

def appendBlockReceipts (number : ℕ) (receipts : List ReceiptWithBloom) : Import σ ε Unit := do
  let s ← get
  match storage.blockBodyIndices s number with
  | .ok (some idx) => appendReceipts storage idx.firstTxNum receipts
  | _ => throw (.panic s!"Failed to get block body indices for block {number}")

/-- The body of the loop of `process_iter`, for a block that is neither skipped nor past the
target. -/
def importEraBlock (block : EraBlock BH BB) : Import σ ε Unit := do
  let number := storage.number block.1
  let hash := storage.hashSlow block.1
  attempt (storage.appendHeader block.1 hash)
  attempt (storage.appendBlockBodies [(number, some block.2.1)])
  appendBlockReceipts storage number block.2.2
  attempt (storage.incrementBlock number)
  attempt (storage.insertHash hash number)

def Bound.lastHeaderNumber : Bound → ℕ
  | included number => number
  | excluded number => number - 1
  | unbounded => 0

def Bound.target : Bound → Option ℕ
  | included number => some number
  | excluded number => some (min (number + 1) (2 ^ 64 - 1))
  | unbounded => none

def pastTarget (target : Option ℕ) (number : ℕ) : Bool :=
  match target with
  | some target => target < number
  | none => false

def processItems (target : Option ℕ) :
    List (Except ε (EraBlock BH BB)) → (lastHeaderNumber : ℕ) → Import σ ε ℕ
  | [], lastHeaderNumber => pure lastHeaderNumber
  | .error e :: _, _ => throw (.error e)
  | .ok block :: rest, lastHeaderNumber =>
    if storage.number block.1 ≤ lastHeaderNumber then
      processItems target rest lastHeaderNumber
    else if pastTarget target (storage.number block.1) then
      pure lastHeaderNumber
    else do
      importEraBlock storage block
      processItems target rest (storage.number block.1)

def processIter (items : List (Except ε (EraBlock BH BB))) (blockNumbers : BlockRange) :
    Import σ ε ℕ :=
  processItems storage blockNumbers.endBound.target items blockNumbers.startBound.lastHeaderNumber

def process (era : EraMeta ε BH BB) (blockNumbers : BlockRange) : Import σ ε ℕ :=
  match era.opened with
  | .error e => throw (.error e)
  | .ok blocks => processIter storage (era.items blocks) blockNumbers

end Blocks

section Files
variable {σ ε BH BB : Type} (storage : EraStorage σ ε BH BB) (maxHeight : Option ℕ)

/-- The last block of the range of a file, and whether it is the last file. -/
def rangeEnd (height : ℕ) : ℕ × Bool :=
  let last := (height + ERA_STEP) % 2 ^ 64
  match maxHeight with
  | some maxHeight => if maxHeight < last then (maxHeight, true) else (last, false)
  | none => (last, false)

def importFile (era : Except ε (EraMeta ε BH BB)) (height : ℕ) : Import σ ε ℕ := do
  attempt storage.databaseProviderRw
  match era with
  | .error e => throw (.error e)
  | .ok era =>
    attempt (storage.latestWriter .Headers)
    attempt (storage.latestWriter .Receipts)
    let reached ← process storage era ⟨.included height, .included (rangeEnd maxHeight height).1⟩
    attempt (storage.saveStageCheckpoints height reached reached reached)
    attempt storage.commit
    pure reached

def importFiles : List (Except ε (EraMeta ε BH BB)) → (height : ℕ) → Import σ ε ℕ
  | [], height => pure height
  | era :: rest, height => do
    let reached ← importFile storage maxHeight era height
    if (rangeEnd maxHeight height).2 then pure reached else importFiles rest reached

/-- `era::import`; `downloader` is the stream of files. -/
def eraImport (downloader : List (Except ε (EraMeta ε BH BB))) : Import σ ε ℕ := do
  let s ← get
  let height ← importFiles storage maxHeight downloader
    ((storage.highestStaticFileBlock s .Headers).getD 0)
  attempt storage.databaseProviderRw
  attempt storage.buildIndex
  attempt storage.commit
  pure height

end Files

/-! ### Which blocks a file contributes -/

section Imported
variable {σ ε BH BB : Type} (storage : EraStorage σ ε BH BB) (target : Option ℕ)

def importedBlocks : List (Except ε (EraBlock BH BB)) → ℕ → List (EraBlock BH BB)
  | [], _ => []
  | .error _ :: _, _ => []
  | .ok block :: rest, lastHeaderNumber =>
    if storage.number block.1 ≤ lastHeaderNumber then importedBlocks rest lastHeaderNumber
    else if pastTarget target (storage.number block.1) then []
    else block :: importedBlocks rest (storage.number block.1)

def numbers (blocks : List (EraBlock BH BB)) : List ℕ :=
  blocks.map (fun block => storage.number block.1)

variable {storage target}

theorem attempt_ok {α : Type} {m : EStateM ε σ α} {s t : σ} {a : α} :
    attempt m s = .ok a t ↔ m s = .ok a t := by
  unfold attempt EStateM.adaptExcept
  cases m s <;> simp

theorem processItems_ok_eq (blocks : List (EraBlock BH BB)) (lastHeaderNumber : ℕ) :
    processItems storage target (blocks.map .ok) lastHeaderNumber = (do
      (importedBlocks storage target (blocks.map .ok) lastHeaderNumber).forM
        (importEraBlock storage)
      pure ((numbers storage
        (importedBlocks storage target (blocks.map .ok) lastHeaderNumber)).getLastD
          lastHeaderNumber)) := by
  induction blocks generalizing lastHeaderNumber with
  | nil => rfl
  | cons block rest ih =>
    rw [List.map_cons, processItems, importedBlocks]
    split_ifs with hskip hpast
    · exact ih lastHeaderNumber
    · rfl
    · have hlast : (numbers storage (block :: importedBlocks storage target (rest.map .ok)
          (storage.number block.1))).getLastD lastHeaderNumber =
          (numbers storage (importedBlocks storage target (rest.map .ok)
            (storage.number block.1))).getLastD (storage.number block.1) :=
        List.getLastD_cons
      rw [ih, hlast, List.forM, bind_assoc]

theorem processItems_ok {items : List (Except ε (EraBlock BH BB))} {lastHeaderNumber height : ℕ}
    {s t : σ} (hrun : processItems storage target items lastHeaderNumber s = .ok height t) :
    (importedBlocks storage target items lastHeaderNumber).forM (importEraBlock storage) s =
      .ok () t := by
  induction items generalizing lastHeaderNumber s with
  | nil =>
    cases hrun
    rfl
  | cons item rest ih =>
    cases item with
    | error e => cases hrun
    | ok block =>
      rw [processItems] at hrun
      rw [importedBlocks]
      split_ifs at hrun ⊢ with hskip hpast
      · exact ih hrun
      · cases hrun
        rfl
      · obtain ⟨_, u, hblock, hrest⟩ := bind_ok.mp hrun
        exact bind_ok.mpr ⟨(), u, hblock, ih hrest⟩

theorem lt_of_mem_importedBlocks {items : List (Except ε (EraBlock BH BB))} {lastHeaderNumber : ℕ}
    {block : EraBlock BH BB} (h : block ∈ importedBlocks storage target items lastHeaderNumber) :
    lastHeaderNumber < storage.number block.1 := by
  induction items generalizing lastHeaderNumber with
  | nil => cases h
  | cons item rest ih =>
    cases item with
    | error e => cases h
    | ok first =>
      rw [importedBlocks] at h
      split_ifs at h with hskip hpast
      · exact ih h
      · cases h
      · rcases List.mem_cons.mp h with rfl | hrest
        · omega
        · have hlt := ih hrest
          omega

theorem importedBlocks_increasing (items : List (Except ε (EraBlock BH BB)))
    (lastHeaderNumber : ℕ) :
    (numbers storage (importedBlocks storage target items lastHeaderNumber)).Pairwise (· < ·) := by
  induction items generalizing lastHeaderNumber with
  | nil => exact List.Pairwise.nil
  | cons item rest ih =>
    cases item with
    | error e => exact List.Pairwise.nil
    | ok block =>
      rw [importedBlocks]
      split_ifs with hskip hpast
      · exact ih lastHeaderNumber
      · exact List.Pairwise.nil
      · refine List.pairwise_cons.mpr ⟨?_, ih _⟩
        intro number hnumber
        obtain ⟨later, hlater, rfl⟩ := List.mem_map.mp hnumber
        exact lt_of_mem_importedBlocks hlater

end Imported

end RethGnosis
