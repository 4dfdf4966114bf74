import RethGnosis.Aura.LiveRun

set_option autoImplicit false

/-!
# Receipt replay at startup

`aura/recovery.rs` and its caller `build_evm`: the last 32 blocks before the head
are replayed on a fresh tracker whose sealed validator set is the signers seen
there, and what the replay leaves pending or scheduled becomes the live tracker.
The replay looks for the events in receipts only, and only those of the contract
that is active at the head.
-/
namespace RethGnosis
open RollingFinality

def reconstructionLookback : ℕ := 32

structure ChainScanner where
  headerByNumber : ℕ → Option GnosisHeader
  receiptsByBlockNumber : ℕ → Option (List Receipt)

def lookbackStart (headBlock : ℕ) : ℕ := headBlock - (reconstructionLookback - 1)

def lookbackWindow (headBlock : ℕ) : List ℕ :=
  List.range' (lookbackStart headBlock) (headBlock + 1 - lookbackStart headBlock)

section Replay
variable (scanner : ChainScanner)

/-- Pass 1: the signers of the window, each once, in order of appearance. -/
def discoverSigners : List ℕ → List Address → List Address
  | [], discovered => discovered
  | n :: rest, discovered =>
    match scanner.headerByNumber n with
    | none => discoverSigners rest discovered
    | some header =>
      discoverSigners rest
        (if discovered.contains header.beneficiary then discovered
          else discovered ++ [header.beneficiary])

/-- The event test of pass 2 at a block whose header was found. -/
def replayAnnounces (contract : Address) (n : ℕ) : Bool :=
  receiptsContainInitiateChange ((scanner.receiptsByBlockNumber n).getD []) contract

/-- Pass 2 at one block: take, scan, push. -/
def replayBlock (contract : Address) (posdaoTransition n : ℕ) (sim : RollingFinality) :
    RollingFinality :=
  let sim := (sim.takeFinalizeChange n).2
  match scanner.headerByNumber n with
  | none => sim
  | some header =>
    let sim :=
      if replayAnnounces scanner contract n then
        if posdaoTransition ≤ n then sim.addPendingTransition n contract
        else sim.setImmediateFinalize (n + 1) contract
      else sim
    (sim.push n header.beneficiary).2

def replay (headBlock : ℕ) (contract : Address) (posdaoTransition : ℕ) : RollingFinality :=
  let discovered := discoverSigners scanner (lookbackWindow headBlock) []
  Run.run (replayBlock scanner contract posdaoTransition) (lookbackWindow headBlock)
    ((new discovered).setValidators discovered)

def reconstructFinalityState (headBlock : ℕ) (validatorContract : Option Address)
    (posdaoTransition : ℕ) : RollingFinality :=
  match validatorContract with
  | none => fromRecovered ∅ none
  | some contract =>
    let sim := replay scanner headBlock contract posdaoTransition
    fromRecovered sim.pendingTransitions sim.finalizeChangeAt

/-- `build_evm` on a pre-merge head: the tracker of the restarted node. -/
def restartedTracker (c : AuraConfig) (head : ℕ) : RollingFinality :=
  let recovered := reconstructFinalityState scanner head (c.validators.contractAddressAt head)
    c.posdaoTransition
  if recovered.pendingTransitions.isEmpty = false ∨ recovered.finalizeChangeAt.isSome then
    recovered
  else
    new []

def recoveryAnnounces (c : AuraConfig) (headBlock n : ℕ) : Bool :=
  match c.validators.contractAddressAt headBlock with
  | none => false
  | some contract =>
    decide (n ∈ lookbackWindow headBlock) && (scanner.headerByNumber n).isSome &&
      replayAnnounces scanner contract n

end Replay

structure Scanned (scanner : ChainScanner) (b : AuraBlock) : Prop where
  header : ∃ header, scanner.headerByNumber b.number = some header ∧
    header.beneficiary = b.beneficiary
  receipts : scanner.receiptsByBlockNumber b.number = some b.receipts

def scannerOf (bs : List AuraBlock) : ChainScanner where
  headerByNumber n := (bs.find? (fun b => b.number == n)).map
    (fun b => { (default : GnosisHeader) with number := n, beneficiary := b.beneficiary })
  receiptsByBlockNumber n := (bs.find? (fun b => b.number == n)).map (·.receipts)

theorem find?_number_of_consecutive {n : ℕ} {bs : List AuraBlock} (h : Consecutive n bs)
    {b : AuraBlock} (hb : b ∈ bs) : bs.find? (fun x => x.number == b.number) = some b := by
  induction bs generalizing n with
  | nil => simp at hb
  | cons x rest ih =>
    obtain ⟨hx, hrest⟩ := h
    rcases List.mem_cons.mp hb with rfl | hb
    · simp
    · have hne : x.number ≠ b.number := by
        have := (hrest.mem_bounds hb).1
        omega
      rw [List.find?_cons_of_neg (by simpa using hne)]
      exact ih hrest hb

theorem scanned_scannerOf {n : ℕ} {bs : List AuraBlock} (h : Consecutive n bs) {b : AuraBlock}
    (hb : b ∈ bs) : Scanned (scannerOf bs) b := by
  constructor <;> simp [scannerOf, find?_number_of_consecutive h hb]

theorem restartedTracker_eq (scanner : ChainScanner) (c : AuraConfig) (head : ℕ) :
    restartedTracker scanner c head =
      reconstructFinalityState scanner head (c.validators.contractAddressAt head)
        c.posdaoTransition := by
  have hrec : ∀ rf : RollingFinality, rf = fromRecovered rf.pendingTransitions rf.finalizeChangeAt →
      (if rf.pendingTransitions.isEmpty = false ∨ rf.finalizeChangeAt.isSome then rf else new []) =
        rf := by
    intro rf hrf
    split_ifs with h
    · rfl
    · rw [not_or, Bool.not_eq_false, Option.not_isSome_iff_eq_none,
        Std.ExtTreeMap.isEmpty_iff] at h
      rw [hrf, h.1, h.2]
      rfl
  apply hrec
  simp only [reconstructFinalityState]
  cases c.validators.contractAddressAt head <;> rfl

section Detection
variable (c : AuraConfig) (headBlock : ℕ) (b : AuraBlock)

def inReceipts (n : ℕ) : Bool :=
  (c.validators.contractAddressAt n).any (receiptsContainInitiateChange b.receipts)

def inRewardLogs : Bool :=
  (c.validators.contractAddressAt b.number).any (logsContainInitiateChange b.rewardLogs)

/-- The block has no event in its reward logs alone and the head's contract is answered like
its own; or its event is in the reward logs alone and the head's contract has one in the
receipts. -/
def SameDetection : Prop :=
  ((inRewardLogs c b = true → inReceipts c b b.number = true) ∧
      inReceipts c b headBlock = inReceipts c b b.number) ∨
    (inRewardLogs c b = true ∧ inReceipts c b b.number = false ∧ inReceipts c b headBlock = true)

end Detection

theorem announces_iff (c : AuraConfig) (b : AuraBlock) (rf : RollingFinality) :
    announces c b rf = (inReceipts c b b.number || inRewardLogs c b) := by
  rw [announces_eq]
  simp only [inReceipts, inRewardLogs]
  cases c.validators.contractAddressAt b.number <;> rfl

/-- Recovery and live execution treat a block of the lookback alike exactly when
`SameDetection` holds of it. -/
theorem recoveryAnnounces_eq_iff {scanner : ChainScanner} {c : AuraConfig} {headBlock : ℕ}
    {b : AuraBlock} (hscan : Scanned scanner b)
    (hwindow : b.number ∈ lookbackWindow headBlock) (rf : RollingFinality) :
    recoveryAnnounces scanner c headBlock b.number = announces c b rf ↔
      SameDetection c headBlock b := by
  obtain ⟨header, hheader, -⟩ := hscan.header
  have hrec : recoveryAnnounces scanner c headBlock b.number = inReceipts c b headBlock := by
    simp only [recoveryAnnounces, inReceipts]
    cases c.validators.contractAddressAt headBlock with
    | none => rfl
    | some contract =>
      simp [hwindow, hheader, replayAnnounces, hscan.receipts]
  rw [hrec, announces_iff]
  simp only [SameDetection]
  cases inReceipts c b headBlock <;> cases inReceipts c b b.number <;>
    cases inRewardLogs c b <;> decide

theorem sameDetection_of_same_contract {c : AuraConfig} {headBlock : ℕ} {b : AuraBlock}
    (h : c.validators.contractAddressAt headBlock = c.validators.contractAddressAt b.number) :
    SameDetection c headBlock b ↔ (inRewardLogs c b = true → inReceipts c b b.number = true) := by
  have heq : inReceipts c b headBlock = inReceipts c b b.number := by
    simp only [inReceipts, h]
  simp only [SameDetection, heq, and_true]
  cases inReceipts c b b.number <;> cases inRewardLogs c b <;> decide

def rewardLogChange : AuraBlock :=
  ⟨40, 1#160, [], [⟨9#160, [INITIATE_CHANGE_TOPIC], []⟩], [], []⟩

theorem recoveryAnnounces_eq_iff_rewardLogChange :
    recoveryAnnounces (scannerOf [rewardLogChange]) (contractFrom 0 9#160 0) 41 40 =
        announces (contractFrom 0 9#160 0) rewardLogChange (new []) ↔
      SameDetection (contractFrom 0 9#160 0) 41 rewardLogChange :=
  have hbs : Consecutive 40 [rewardLogChange] := ⟨rfl, trivial⟩
  recoveryAnnounces_eq_iff (scanned_scannerOf hbs List.mem_cons_self) (by decide) (new [])

theorem rewardLogChange_missed :
    announces (contractFrom 0 9#160 0) rewardLogChange (new []) = true ∧
      recoveryAnnounces (scannerOf [rewardLogChange]) (contractFrom 0 9#160 0) 41 40 = false := by
  decide

end RethGnosis
