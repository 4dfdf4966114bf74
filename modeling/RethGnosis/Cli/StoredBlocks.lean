import Mathlib.Algebra.Order.Ring.Nat
import Mathlib.Logic.Function.Basic
import RethGnosis.Cli.Era

set_option autoImplicit false

/-!
# What an import writes

The part of the storage that an import extends, each operation as a change of it. The
transactions of a body are numbered by the database, the receipts by the loop.
-/
namespace RethGnosis
open Fallible

structure StoredBlocks (BH BB : Type) where
  height : Option ℕ
  headers : List BH
  bodies : List (ℕ × BB)
  indices : ℕ → Option StoredBlockBodyIndices
  nextTx : ℕ
  nextReceipt : ℕ
  receiptAt : ℕ → Option Receipt
  receiptsHeight : Option ℕ

namespace StoredBlocks
variable {BH BB : Type} (stored : StoredBlocks BH BB)

def appendHeader (number : ℕ) (header : BH) : StoredBlocks BH BB :=
  { stored with
    height := some number
    headers := stored.headers ++ [header] }

def appendBody (number : ℕ) (body : BB) (txCount : ℕ) : StoredBlocks BH BB :=
  { stored with
    bodies := stored.bodies ++ [(number, body)]
    indices := Function.update stored.indices number (some ⟨stored.nextTx, txCount⟩)
    nextTx := stored.nextTx + txCount }

def appendReceipt (i : ℕ) (receipt : Receipt) : StoredBlocks BH BB :=
  { stored with
    nextReceipt := i + 1
    receiptAt := Function.update stored.receiptAt i (some receipt) }

def appendReceipts (stored : StoredBlocks BH BB) : ℕ → List ReceiptWithBloom → StoredBlocks BH BB
  | _, [] => stored
  | i, receipt :: rest => (stored.appendReceipt i receipt.receipt).appendReceipts (i + 1) rest

def incrementBlock (number : ℕ) : StoredBlocks BH BB :=
  { stored with receiptsHeight := some number }

/-- The whole body of the loop. -/
def importBlock (number txCount : ℕ) (block : EraBlock BH BB) : StoredBlocks BH BB :=
  (((stored.appendHeader number block.1).appendBody number block.2.1 txCount).appendReceipts
    stored.nextTx block.2.2).incrementBlock number

theorem appendBody_indices_self (number : ℕ) (body : BB) (txCount : ℕ) :
    (stored.appendBody number body txCount).indices number = some ⟨stored.nextTx, txCount⟩ :=
  Function.update_self _ _ _

section Receipts
variable (i k : ℕ) (receipts : List ReceiptWithBloom)

theorem appendReceipts_height : (stored.appendReceipts i receipts).height = stored.height := by
  induction receipts generalizing stored i with
  | nil => rfl
  | cons receipt rest ih => exact ih _ _

theorem appendReceipts_headers : (stored.appendReceipts i receipts).headers = stored.headers := by
  induction receipts generalizing stored i with
  | nil => rfl
  | cons receipt rest ih => exact ih _ _

theorem appendReceipts_bodies : (stored.appendReceipts i receipts).bodies = stored.bodies := by
  induction receipts generalizing stored i with
  | nil => rfl
  | cons receipt rest ih => exact ih _ _

theorem appendReceipts_indices : (stored.appendReceipts i receipts).indices = stored.indices := by
  induction receipts generalizing stored i with
  | nil => rfl
  | cons receipt rest ih => exact ih _ _

theorem appendReceipts_nextTx : (stored.appendReceipts i receipts).nextTx = stored.nextTx := by
  induction receipts generalizing stored i with
  | nil => rfl
  | cons receipt rest ih => exact ih _ _

theorem appendReceipts_receiptsHeight :
    (stored.appendReceipts i receipts).receiptsHeight = stored.receiptsHeight := by
  induction receipts generalizing stored i with
  | nil => rfl
  | cons receipt rest ih => exact ih _ _

theorem appendReceipts_nextReceipt (h : receipts ≠ []) :
    (stored.appendReceipts i receipts).nextReceipt = i + receipts.length := by
  induction receipts generalizing stored i with
  | nil => contradiction
  | cons receipt rest ih =>
    rw [appendReceipts]
    cases rest with
    | nil => rfl
    | cons next rest =>
      rw [ih _ _ (List.cons_ne_nil _ _)]
      simp only [List.length_cons]
      omega

theorem appendReceipts_receiptAt :
    (stored.appendReceipts i receipts).receiptAt k =
      if i ≤ k ∧ k < i + receipts.length then (receipts[k - i]?).map ReceiptWithBloom.receipt
      else stored.receiptAt k := by
  induction receipts generalizing stored i with
  | nil =>
    rw [if_neg (by rw [List.length_nil]; omega)]
    rfl
  | cons receipt rest ih =>
    rw [appendReceipts, ih, List.length_cons, appendReceipt]
    dsimp only
    rw [Function.update_apply]
    by_cases hfirst : k = i
    · subst hfirst
      rw [if_neg (by omega), if_pos rfl, if_pos (by omega), Nat.sub_self]
      rfl
    · by_cases hlater : i ≤ k ∧ k < i + (rest.length + 1)
      · have hindex : k - i = (k - (i + 1)) + 1 := by omega
        rw [if_pos (by omega), if_pos hlater, hindex, List.getElem?_cons_succ]
      · rw [if_neg (by omega), if_neg hfirst, if_neg hlater]

end Receipts

section Block
variable (number txCount : ℕ) (block : EraBlock BH BB)

theorem importBlock_height : (stored.importBlock number txCount block).height = some number :=
  appendReceipts_height _ _ _

theorem importBlock_headers :
    (stored.importBlock number txCount block).headers = stored.headers ++ [block.1] :=
  appendReceipts_headers _ _ _

theorem importBlock_bodies :
    (stored.importBlock number txCount block).bodies = stored.bodies ++ [(number, block.2.1)] :=
  appendReceipts_bodies _ _ _

theorem importBlock_indices : (stored.importBlock number txCount block).indices =
    Function.update stored.indices number (some ⟨stored.nextTx, txCount⟩) :=
  appendReceipts_indices _ _ _

theorem importBlock_nextTx :
    (stored.importBlock number txCount block).nextTx = stored.nextTx + txCount :=
  appendReceipts_nextTx _ _ _

theorem importBlock_nextReceipt (h : block.2.2 ≠ []) :
    (stored.importBlock number txCount block).nextReceipt = stored.nextTx + block.2.2.length :=
  appendReceipts_nextReceipt _ _ _ h

theorem importBlock_nextReceipt_nil (h : block.2.2 = []) :
    (stored.importBlock number txCount block).nextReceipt = stored.nextReceipt := by
  rw [importBlock, h]
  rfl

theorem importBlock_receiptAt (k : ℕ) : (stored.importBlock number txCount block).receiptAt k =
    if stored.nextTx ≤ k ∧ k < stored.nextTx + block.2.2.length then
      (block.2.2[k - stored.nextTx]?).map ReceiptWithBloom.receipt
    else stored.receiptAt k :=
  appendReceipts_receiptAt _ _ _ _

end Block

end StoredBlocks

section Laws
variable {σ ε BH BB : Type} (storage : EraStorage σ ε BH BB) (view : σ → StoredBlocks BH BB)
  (txCount : BB → ℕ)

/-- What the operations do when they succeed. A body is given the next transaction numbers, and a
receipt is stored under the number it comes with, which has to be the next one. -/
structure StorageLaws : Prop where
  height : ∀ s, storage.highestStaticFileBlock s .Headers = (view s).height
  blockBodyIndices : ∀ s number idx, storage.blockBodyIndices s number = .ok (some idx) →
    (view s).indices number = some idx
  appendHeader : ∀ header hash, Ensures
    (fun s t => view t = (view s).appendHeader (storage.number header) header)
    (storage.appendHeader header hash)
  appendBlockBodies : ∀ number body, Ensures
    (fun s t => view t = (view s).appendBody number body (txCount body))
    (storage.appendBlockBodies [(number, some body)])
  appendReceipt : ∀ i receipt, Ensures
    (fun s t => i = (view s).nextReceipt ∧ view t = (view s).appendReceipt i receipt)
    (storage.appendReceipt i receipt)
  incrementBlock : ∀ number, Ensures (fun s t => view t = (view s).incrementBlock number)
    (storage.incrementBlock number)
  insertHash : ∀ hash number, Ensures (fun s t => view t = view s) (storage.insertHash hash number)

variable {storage view txCount}

theorem StorageLaws.appendReceipts_ok (h : StorageLaws storage view txCount) {i : ℕ}
    {receipts : List ReceiptWithBloom} {s t : σ}
    (hrun : appendReceipts storage i receipts s = .ok () t) :
    (receipts ≠ [] → (view s).nextReceipt = i) ∧
      view t = (view s).appendReceipts i receipts := by
  induction receipts generalizing i s with
  | nil =>
    cases hrun
    exact ⟨fun hne => absurd rfl hne, rfl⟩
  | cons receipt rest ih =>
    obtain ⟨_, u, hfirst, hrest⟩ := bind_ok.mp hrun
    obtain ⟨hnext, hview⟩ := h.appendReceipt i receipt.receipt s () u (attempt_ok.mp hfirst)
    obtain ⟨-, ht⟩ := ih hrest
    rw [hview] at ht
    exact ⟨fun _ => hnext.symm, ht⟩

theorem StorageLaws.appendBlockReceipts_ok (h : StorageLaws storage view txCount) {number : ℕ}
    {receipts : List ReceiptWithBloom} {s t : σ}
    (hrun : appendBlockReceipts storage number receipts s = .ok () t) :
    ∃ idx, (view s).indices number = some idx ∧
      (receipts ≠ [] → (view s).nextReceipt = idx.firstTxNum) ∧
      view t = (view s).appendReceipts idx.firstTxNum receipts := by
  unfold appendBlockReceipts at hrun
  rw [get_bind_run] at hrun
  cases hfound : storage.blockBodyIndices s number with
  | error e =>
    rw [hfound] at hrun
    cases hrun
  | ok found =>
    rw [hfound] at hrun
    cases found with
    | none => cases hrun
    | some idx =>
      exact ⟨idx, h.blockBodyIndices s number idx hfound, h.appendReceipts_ok hrun⟩

theorem StorageLaws.importBlock_ok (h : StorageLaws storage view txCount)
    {block : EraBlock BH BB} {s t : σ} (hrun : importEraBlock storage block s = .ok () t) :
    (block.2.2 ≠ [] → (view s).nextReceipt = (view s).nextTx) ∧
      view t = (view s).importBlock (storage.number block.1) (txCount block.2.1) block := by
  obtain ⟨_, s₁, hheader, hrest⟩ := bind_ok.mp hrun
  obtain ⟨_, s₂, hbody, hrest⟩ := bind_ok.mp hrest
  obtain ⟨_, s₃, hreceipts, hrest⟩ := bind_ok.mp hrest
  obtain ⟨_, s₄, hincrement, hhash⟩ := bind_ok.mp hrest
  have h₁ : view s₁ = (view s).appendHeader (storage.number block.1) block.1 :=
    h.appendHeader _ _ s () s₁ (attempt_ok.mp hheader)
  have h₂ : view s₂ =
      (view s₁).appendBody (storage.number block.1) block.2.1 (txCount block.2.1) :=
    h.appendBlockBodies _ _ s₁ () s₂ (attempt_ok.mp hbody)
  obtain ⟨idx, hfound, hnext, h₃⟩ := h.appendBlockReceipts_ok hreceipts
  have h₄ : view s₄ = (view s₃).incrementBlock (storage.number block.1) :=
    h.incrementBlock _ s₃ () s₄ (attempt_ok.mp hincrement)
  have h₅ : view t = view s₄ := h.insertHash _ _ s₄ () t (attempt_ok.mp hhash)
  rw [h₁] at h₂
  have hfirst : idx.firstTxNum = (view s).nextTx := by
    rw [h₂, StoredBlocks.appendBody_indices_self, Option.some.injEq] at hfound
    rw [← hfound]
    rfl
  rw [hfirst, h₂] at hnext
  rw [hfirst, h₂] at h₃
  constructor
  · exact hnext
  · rw [h₅, h₄, h₃]
    rfl

end Laws

section Ledger

/-- A storage that is what it stores; headers are numbers, bodies are numbers of transactions. -/
def ledger : EraStorage (StoredBlocks ℕ ℕ) String ℕ ℕ where
  number := id
  hashSlow := BitVec.ofNat 256
  highestStaticFileBlock := fun stored _ => stored.height
  databaseProviderRw := pure ()
  latestWriter := fun _ => pure ()
  appendHeader := fun header _ => do
    let stored ← get
    if header = stored.height.getD 0 + 1 then set (stored.appendHeader header header)
    else throw "unexpected block number"
  appendBlockBodies := fun bodies => bodies.forM (fun entry =>
    modify (fun stored => stored.appendBody entry.1 (entry.2.getD 0) (entry.2.getD 0)))
  blockBodyIndices := fun stored number => .ok (stored.indices number)
  appendReceipt := fun i receipt => do
    let stored ← get
    if i = stored.nextReceipt then set (stored.appendReceipt i receipt)
    else throw "unexpected receipt number"
  incrementBlock := fun number => do
    let stored ← get
    if number = stored.receiptsHeight.getD 0 + 1 then set (stored.incrementBlock number)
    else throw "unexpected block number"
  insertHash := fun _ _ => pure ()
  saveStageCheckpoints := fun _ _ _ _ => pure ()
  commit := pure ()
  buildIndex := pure ()

def genesisLedger : StoredBlocks ℕ ℕ where
  height := some 0
  headers := [0]
  bodies := [(0, 0)]
  indices := Function.update (fun _ => none) 0 (some ⟨0, 0⟩)
  nextTx := 0
  nextReceipt := 0
  receiptAt := fun _ => none
  receiptsHeight := some 0

theorem ledger_appendHeader (header : ℕ) (hash : B256) (stored : StoredBlocks ℕ ℕ) :
    ledger.appendHeader header hash stored =
      if header = stored.height.getD 0 + 1 then .ok () (stored.appendHeader header header)
      else .error "unexpected block number" stored := by
  change (if header = stored.height.getD 0 + 1 then set (stored.appendHeader header header)
    else throw "unexpected block number" : EStateM String (StoredBlocks ℕ ℕ) Unit) stored = _
  split_ifs <;> rfl

theorem ledger_appendReceipt (i : ℕ) (receipt : Receipt) (stored : StoredBlocks ℕ ℕ) :
    ledger.appendReceipt i receipt stored =
      if i = stored.nextReceipt then .ok () (stored.appendReceipt i receipt)
      else .error "unexpected receipt number" stored := by
  change (if i = stored.nextReceipt then set (stored.appendReceipt i receipt)
    else throw "unexpected receipt number" : EStateM String (StoredBlocks ℕ ℕ) Unit) stored = _
  split_ifs <;> rfl

theorem ledger_incrementBlock (number : ℕ) (stored : StoredBlocks ℕ ℕ) :
    ledger.incrementBlock number stored =
      if number = stored.receiptsHeight.getD 0 + 1 then .ok () (stored.incrementBlock number)
      else .error "unexpected block number" stored := by
  change (if number = stored.receiptsHeight.getD 0 + 1 then set (stored.incrementBlock number)
    else throw "unexpected block number" : EStateM String (StoredBlocks ℕ ℕ) Unit) stored = _
  split_ifs <;> rfl

theorem ledger_laws : StorageLaws ledger id id := by
  constructor
  · exact fun s => rfl
  · intro s number idx hfound
    exact Except.ok.inj hfound
  · intro header hash s _ t hrun
    rw [ledger_appendHeader] at hrun
    split_ifs at hrun
    cases hrun
    rfl
  · intro number body s _ t hrun
    cases hrun
    rfl
  · intro i receipt s _ t hrun
    rw [ledger_appendReceipt] at hrun
    split_ifs at hrun with hnext
    cases hrun
    exact ⟨hnext, rfl⟩
  · intro number s _ t hrun
    rw [ledger_incrementBlock] at hrun
    split_ifs at hrun
    cases hrun
    rfl
  · intro hash number s _ t hrun
    cases hrun
    rfl

end Ledger

end RethGnosis
