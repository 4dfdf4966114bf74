import RethGnosis.Cli.EraImport
import RethGnosis.Library.Run

set_option autoImplicit false

/-!
# Repeated runs of the era import

`cli/import_era.rs`: a run starts behind the highest stored header and downloads from the
file that holds the next block. A download may break off; the next run goes on from what
is stored. The first run that returns ends at the target or at the end of a file, and the
second at the target.
-/
namespace RethGnosis
open Fallible StoredBlocks

def MAINNET_ERA_IMPORT_HEIGHT : ℕ := 25349537

section Command
variable {σ ε BH BB : Type} (storage : EraStorage σ ε BH BB) (init createFolder : EStateM ε σ Unit)

/-- `execute_inner`; `stream` gives the downloaded files from the one with the next block on. -/
def executeInner (chainId : ℕ) (stream : ℕ → List (Except ε (EraMeta ε BH BB))) :
    Import σ ε Unit := do
  attempt init
  let s ← get
  let nextBlock := ((storage.highestStaticFileBlock s .Headers).getD 0 + 1) % 2 ^ 64
  if chainId = 100 then do
    attempt createFolder
    let _ ← eraImport storage (some MAINNET_ERA_IMPORT_HEIGHT) (stream nextBlock)
    pure ()
  else
    throw (.panic s!"Era import not supported for chain id {chainId}")

/-- The host of the files; file `k` has the blocks from `8192 k` on. -/
structure EraHost (ε BH BB : Type) where
  count : ℕ
  file : ℕ → EraMeta ε BH BB

/-- The files from the one with block `start` on, or, of a download that breaks off, the first
few of them and an error. -/
def EraHost.stream (host : EraHost ε BH BB) (cut : Option (ℕ × ε)) (start : ℕ) :
    List (Except ε (EraMeta ε BH BB)) :=
  let files := (List.range' (start / ERA_STEP) (host.count - start / ERA_STEP)).map
    (fun k => .ok (host.file k))
  match cut with
  | none => files
  | some (k, e) => files.take k ++ [.error e]

variable (host : EraHost ε BH BB)

def runEra (cut : Option (ℕ × ε)) : Import σ ε Unit :=
  executeInner storage init createFolder 100 (host.stream cut)

def eraStep (cut : Option (ℕ × ε)) (s : σ) : σ :=
  final (runEra storage init createFolder host cut s)

def returned (runs : List (Option (ℕ × ε))) (s : σ) : ℕ :=
  (Run.visits (eraStep storage init createFolder host) runs s).countP
    (fun v => !failed (runEra storage init createFolder host v.1 v.2))

end Command

def Resting (maxHeight height : ℕ) : Prop := height = maxHeight ∨ ERA_STEP ∣ height + 1

section Files
variable {σ ε BH BB : Type} {storage : EraStorage σ ε BH BB} {view : σ → StoredBlocks BH BB}
  {txCount : BB → ℕ} {blockAt : ℕ → EraBlock BH BB} {maxHeight : ℕ}

variable (storage view txCount blockAt maxHeight) in
/-- Where an import from `height` leaves the storage, and what it means that it returned. -/
structure EndsAt {α : Type} (height : ℕ) (s : σ)
    (r : EStateM.Result (ImportFault ε) σ α) (reached : ℕ) : Prop where
  le : height ≤ reached
  le_target : reached ≤ maxHeight
  imported : Imported storage view txCount blockAt height reached s (final r)
  resting : reached = height ∨ Resting maxHeight reached
  done : failed r = false → Resting maxHeight reached ∧
    (Resting maxHeight height → reached = maxHeight)

theorem EndsAt.congr {α β : Type} {height reached : ℕ} {s s' : σ}
    {r : EStateM.Result (ImportFault ε) σ α} {r' : EStateM.Result (ImportFault ε) σ β}
    (h : EndsAt storage view txCount blockAt maxHeight height s r reached)
    (hs : view s' = view s) (hfinal : view (final r') = view (final r))
    (hfailed : failed r' = failed r) :
    EndsAt storage view txCount blockAt maxHeight height s' r' reached :=
  ⟨h.le, h.le_target, h.imported.congr hs hfinal, h.resting, by rw [hfailed]; exact h.done⟩

/-- What ends well from a resting height ends well from wherever that height was reached. -/
theorem EndsAt.after {α : Type} {height middle reached : ℕ} {s t : σ}
    {r : EStateM.Result (ImportFault ε) σ α}
    (h : EndsAt storage view txCount blockAt maxHeight middle t r reached)
    (himported : Imported storage view txCount blockAt height middle s t) (hle : height ≤ middle)
    (hresting : Resting maxHeight middle) :
    EndsAt storage view txCount blockAt maxHeight height s r reached := by
  refine ⟨hle.trans h.le, h.le_target, himported.trans hle h.le h.imported, .inr ?_, ?_⟩
  · rcases h.resting with rfl | hrests
    · exact hresting
    · exact hrests
  · intro hreturned
    obtain ⟨hrests, hdone⟩ := h.done hreturned
    exact ⟨hrests, fun _ => hdone hresting⟩

theorem fileEnd_of_going {k height : ℕ} (hlow : ERA_STEP * k ≤ height + 1)
    (hhigh : height + 1 < ERA_STEP * k + ERA_STEP) :
    fileEnd k height (height + ERA_STEP) + 1 = ERA_STEP * (k + 1) := by
  unfold fileEnd ERA_STEP at *
  omega

theorem fileEnd_of_stopping {k height : ℕ} (hlow : ERA_STEP * k ≤ height + 1)
    (hhigh : height + 1 < ERA_STEP * k + ERA_STEP) (hmax : height ≤ maxHeight)
    (hstop : maxHeight < height + ERA_STEP) :
    height ≤ fileEnd k height maxHeight ∧ fileEnd k height maxHeight ≤ maxHeight ∧
      Resting maxHeight (fileEnd k height maxHeight) ∧
      (Resting maxHeight height → fileEnd k height maxHeight = maxHeight) := by
  unfold Resting fileEnd ERA_STEP at *
  omega

theorem rangeEnd_of_le {height : ℕ} (hmax : height ≤ maxHeight)
    (hu64 : maxHeight + ERA_STEP < 2 ^ 64) :
    rangeEnd (some maxHeight) height =
      if maxHeight < height + ERA_STEP then (maxHeight, true) else (height + ERA_STEP, false) := by
  unfold rangeEnd
  rw [Nat.mod_eq_of_lt (by omega)]

/-- The error of a download ends the import before anything is stored. -/
theorem importFiles_broken (healthy : HealthyStorage storage view txCount) (target : Option ℕ)
    (e : ε) (height : ℕ) (s : σ) :
    ∃ t, importFiles storage target [.error e] height s = .error (.error e) t ∧
      view t = view s := by
  obtain ⟨_, t, hprovider, ht⟩ := healthy.databaseProviderRw s
  have hfile : importFile storage target (.error e) height s = .error (.error e) t := by
    unfold importFile
    rw [bind_run, attempt_ok.mpr hprovider]
    rfl
  refine ⟨t, ?_, ht⟩
  rw [importFiles, bind_run, hfile]

theorem importFiles_ends (healthy : HealthyStorage storage view txCount)
    (hu64 : maxHeight + ERA_STEP < 2 ^ 64) {files : List (Except ε (EraMeta ε BH BB))}
    {failure : Option ε} {k : ℕ} (hfiles : EraFiles storage txCount blockAt k files)
    (hcover : failure = none → maxHeight < ERA_STEP * (k + files.length)) {height : ℕ} {s : σ}
    (ready : Ready (view s) height) (hlow : ERA_STEP * k ≤ height + 1)
    (hhigh : height + 1 < ERA_STEP * k + ERA_STEP) (hmax : height ≤ maxHeight) :
    ∃ reached, EndsAt storage view txCount blockAt maxHeight height s
        (importFiles storage (some maxHeight)
          (files ++ (failure.map Except.error).toList) height s) reached ∧
      (failure = none → failed (importFiles storage (some maxHeight)
        (files ++ (failure.map Except.error).toList) height s) = false) := by
  induction files generalizing k height s with
  | nil =>
    refine ⟨height, ?_⟩
    cases failure with
    | none =>
      have hreached : height = maxHeight := by
        have hlt := hcover rfl
        rw [List.length_nil, Nat.add_zero] at hlt
        omega
      refine ⟨⟨le_rfl, hmax, imported_self ready, .inl rfl, fun _ => ⟨.inl hreached, ?_⟩⟩,
        fun _ => rfl⟩
      exact fun _ => hreached
    | some e =>
      obtain ⟨t, hrun, ht⟩ := importFiles_broken healthy (some maxHeight) e height s
      change EndsAt storage view txCount blockAt maxHeight height s
        (importFiles storage (some maxHeight) [.error e] height s) height ∧ _
      rw [hrun]
      refine ⟨⟨le_rfl, hmax, (imported_self ready).congr rfl ht, .inl rfl, ?_⟩, ?_⟩
      · exact fun h => by cases h
      · exact fun h => by cases h
  | cons file rest ih =>
    obtain ⟨⟨era, rfl, hfile⟩, hrest⟩ := hfiles
    obtain ⟨reached₁, t, hrun, hreached₁, himported⟩ :=
      healthy.importFile hfile ready hlow hhigh (some maxHeight)
    rw [rangeEnd_of_le hmax hu64] at hreached₁
    rw [List.cons_append, importFiles, bind_run, hrun, rangeEnd_of_le hmax hu64]
    by_cases hstop : maxHeight < height + ERA_STEP
    · rw [if_pos hstop] at hreached₁ ⊢
      obtain ⟨hle, hletarget, hresting, hdone⟩ := fileEnd_of_stopping hlow hhigh hmax hstop
      have hend : reached₁ = fileEnd k height maxHeight := hreached₁
      rw [← hend] at hle hletarget hresting hdone
      exact ⟨reached₁, ⟨hle, hletarget, himported, .inr hresting, fun _ => ⟨hresting, hdone⟩⟩,
        fun _ => rfl⟩
    · rw [if_neg hstop] at hreached₁ ⊢
      have hend : reached₁ + 1 = ERA_STEP * (k + 1) := by
        rw [hreached₁]
        exact fileEnd_of_going hlow hhigh
      have hresting : Resting maxHeight reached₁ := .inr ⟨k + 1, hend⟩
      have hlength : k + 1 + rest.length = k + (Except.ok era :: rest).length := by
        rw [List.length_cons]
        omega
      obtain ⟨reached, hends, hok⟩ := ih hrest (by rw [hlength]; exact hcover) himported.ready
        (by omega)
        (by unfold ERA_STEP at *; omega) (by unfold ERA_STEP at *; omega)
      have hle : height ≤ reached₁ := by
        unfold ERA_STEP at *
        omega
      exact ⟨reached, hends.after himported hle hresting, hok⟩

theorem eraImport_ends (healthy : HealthyStorage storage view txCount)
    (hu64 : maxHeight + ERA_STEP < 2 ^ 64) {files : List (Except ε (EraMeta ε BH BB))}
    {failure : Option ε} {k : ℕ} (hfiles : EraFiles storage txCount blockAt k files)
    (hcover : failure = none → maxHeight < ERA_STEP * (k + files.length)) {height : ℕ} {s : σ}
    (ready : Ready (view s) height) (hlow : ERA_STEP * k ≤ height + 1)
    (hhigh : height + 1 < ERA_STEP * k + ERA_STEP) (hmax : height ≤ maxHeight) :
    ∃ reached, EndsAt storage view txCount blockAt maxHeight height s
        (eraImport storage (some maxHeight)
          (files ++ (failure.map Except.error).toList) s) reached ∧
      (failure = none → failed (eraImport storage (some maxHeight)
        (files ++ (failure.map Except.error).toList) s) = false) := by
  obtain ⟨reached, hends, hok⟩ :=
    importFiles_ends healthy hu64 hfiles hcover ready hlow hhigh hmax
  have hstart : (storage.highestStaticFileBlock s .Headers).getD 0 = height := by
    rw [healthy.height, ready.height]
    rfl
  refine ⟨reached, ?_⟩
  unfold eraImport
  rw [get_bind_run, hstart]
  cases hrun : importFiles storage (some maxHeight)
      (files ++ (failure.map Except.error).toList) height s with
  | error e t =>
    rw [hrun] at hends hok
    rw [bind_run, hrun]
    exact ⟨hends.congr rfl rfl rfl, hok⟩
  | ok r t =>
    have hindex : Delivers (do
        attempt storage.databaseProviderRw
        attempt storage.buildIndex
        attempt storage.commit
        pure r) t (fun _ u => view u = view t) := by
      refine ((healthy.databaseProviderRw t).adaptExcept _).bind ?_
      intro _ u₁ h₁
      refine ((healthy.buildIndex u₁).adaptExcept _).bind ?_
      intro _ u₂ h₂
      refine ((healthy.commit u₂).adaptExcept _).bind ?_
      intro _ u₃ h₃
      exact delivers_pure (h₃.trans (h₂.trans h₁))
    obtain ⟨_, u, hfinish, hview⟩ := hindex
    rw [hrun] at hends
    rw [bind_run, hrun]
    dsimp only
    rw [hfinish]
    exact ⟨hends.congr rfl hview rfl, fun _ => rfl⟩

end Files

section Runs
variable {σ ε BH BB : Type} {storage : EraStorage σ ε BH BB} {view : σ → StoredBlocks BH BB}
  {txCount : BB → ℕ} {blockAt : ℕ → EraBlock BH BB} {init createFolder : EStateM ε σ Unit}
  {host : EraHost ε BH BB}

variable (storage view txCount blockAt init createFolder host) in
/-- A storage on which nothing fails, and a host with all files up to the target. Only a download
may break off. -/
structure EraSetting : Prop where
  healthy : HealthyStorage storage view txCount
  init : ∀ s, Delivers init s (fun _ t => view t = view s)
  createFolder : ∀ s, Delivers createFolder s (fun _ t => view t = view s)
  files : ∀ k, k < host.count → EraFile storage txCount blockAt k (host.file k)
  covers : MAINNET_ERA_IMPORT_HEIGHT < ERA_STEP * host.count

theorem eraFiles_range (hfiles : ∀ k, k < host.count →
    EraFile storage txCount blockAt k (host.file k)) {k n : ℕ} (hn : k + n ≤ host.count) :
    EraFiles storage txCount blockAt k ((List.range' k n).map (fun k => .ok (host.file k))) := by
  induction n generalizing k with
  | zero => trivial
  | succ n ih => exact ⟨⟨host.file k, rfl, hfiles k (by omega)⟩, ih (by omega)⟩

theorem EraFiles.take {files : List (Except ε (EraMeta ε BH BB))} {k : ℕ}
    (h : EraFiles storage txCount blockAt k files) (n : ℕ) :
    EraFiles storage txCount blockAt k (files.take n) := by
  induction files generalizing k n with
  | nil =>
    rw [List.take_nil]
    trivial
  | cons file rest ih =>
    cases n with
    | zero => trivial
    | succ n => exact ⟨h.1, ih h.2 n⟩

theorem EraHost.stream_files (hfiles : ∀ k, k < host.count →
    EraFile storage txCount blockAt k (host.file k))
    (hcovers : MAINNET_ERA_IMPORT_HEIGHT < ERA_STEP * host.count) (cut : Option (ℕ × ε)) {start : ℕ}
    (hstart : start ≤ MAINNET_ERA_IMPORT_HEIGHT + 1) :
    ∃ files, host.stream cut start = files ++ ((cut.map Prod.snd).map Except.error).toList ∧
      EraFiles storage txCount blockAt (start / ERA_STEP) files ∧
      (cut.map Prod.snd = none →
        MAINNET_ERA_IMPORT_HEIGHT < ERA_STEP * (start / ERA_STEP + files.length)) := by
  have hfirst : start / ERA_STEP ≤ host.count := by
    unfold ERA_STEP at *
    omega
  have hall := eraFiles_range hfiles (k := start / ERA_STEP) (n := host.count - start / ERA_STEP)
    (by omega)
  cases cut with
  | none =>
    refine ⟨host.stream none start, (List.append_nil _).symm, hall, fun _ => ?_⟩
    unfold EraHost.stream
    rw [List.length_map, List.length_range', Nat.add_sub_cancel' hfirst]
    exact hcovers
  | some found => exact ⟨_, rfl, hall.take found.1, fun h => by cases h⟩

theorem runEra_ends (setting : EraSetting storage view txCount blockAt init createFolder host)
    (cut : Option (ℕ × ε)) {height : ℕ} {s : σ} (ready : Ready (view s) height)
    (hmax : height ≤ MAINNET_ERA_IMPORT_HEIGHT) :
    ∃ reached, EndsAt storage view txCount blockAt MAINNET_ERA_IMPORT_HEIGHT height s
        (runEra storage init createFolder host cut s) reached ∧
      (cut = none → failed (runEra storage init createFolder host cut s) = false) := by
  obtain ⟨_, s₁, hinit, h₁⟩ := setting.init s
  obtain ⟨_, s₂, hfolder, h₂⟩ := setting.createFolder s₁
  have ready₂ : Ready (view s₂) height := by
    rw [h₂, h₁]
    exact ready
  have hnext : ((storage.highestStaticFileBlock s₁ .Headers).getD 0 + 1) % 2 ^ 64 = height + 1 := by
    rw [setting.healthy.height, h₁, ready.height, Option.getD_some]
    refine Nat.mod_eq_of_lt ?_
    unfold MAINNET_ERA_IMPORT_HEIGHT at hmax
    omega
  obtain ⟨files, hstream, hfiles, hcover⟩ :=
    host.stream_files setting.files setting.covers cut
      (show height + 1 ≤ MAINNET_ERA_IMPORT_HEIGHT + 1 by omega)
  obtain ⟨reached, hends, hok⟩ := eraImport_ends setting.healthy (by decide) hfiles hcover ready₂
    (Nat.mul_div_le _ _) (Nat.lt_mul_div_succ _ (by decide)) hmax
  have hrun : runEra storage init createFolder host cut s =
      (do
        let _ ← eraImport storage (some MAINNET_ERA_IMPORT_HEIGHT) (host.stream cut (height + 1))
        pure () : Import σ ε Unit) s₂ := by
    unfold runEra executeInner
    rw [bind_run, attempt_ok.mpr hinit]
    dsimp only
    rw [get_bind_run, hnext, if_pos rfl, bind_run, attempt_ok.mpr hfolder]
  rw [← hstream] at hends hok
  refine ⟨reached, ?_⟩
  have hview : view s = view s₂ := (h₂.trans h₁).symm
  rw [hrun, bind_run]
  cases himport : eraImport storage (some MAINNET_ERA_IMPORT_HEIGHT)
      (host.stream cut (height + 1)) s₂ with
  | ok r t =>
    rw [himport] at hends
    exact ⟨hends.congr hview rfl rfl, fun _ => rfl⟩
  | error e t =>
    rw [himport] at hends hok
    refine ⟨hends.congr hview rfl rfl, ?_⟩
    rintro rfl
    exact hok rfl

theorem returned_cons (cut : Option (ℕ × ε)) (rest : List (Option (ℕ × ε))) (s : σ) :
    returned storage init createFolder host (cut :: rest) s =
      returned storage init createFolder host rest
          (final (runEra storage init createFolder host cut s)) +
        if failed (runEra storage init createFolder host cut s) then 0 else 1 := by
  unfold returned
  rw [Run.visits, List.countP_cons, eraStep]
  cases failed (runEra storage init createFolder host cut s) <;> rfl

theorem two_le_returned (cut : Option (ℕ × ε)) (s : σ)
    (hfirst : failed (runEra storage init createFolder host none
      (Run.run (eraStep storage init createFolder host) [cut] s)) = false)
    (hsecond : failed (runEra storage init createFolder host none
      (Run.run (eraStep storage init createFolder host) [cut, none] s)) = false) :
    2 ≤ returned storage init createFolder host [cut, none, none] s := by
  have hnone : ∀ t, failed (runEra storage init createFolder host none t) = false →
      returned storage init createFolder host [none] t = 1 := by
    intro t ht
    rw [returned_cons, ht]
    rfl
  have hlast := hnone _ hsecond
  rw [returned_cons, returned_cons]
  change 2 ≤ returned storage init createFolder host [none]
    (Run.run (eraStep storage init createFolder host) [cut, none] s) +
      (if failed (runEra storage init createFolder host none
        (Run.run (eraStep storage init createFolder host) [cut] s)) = true then 0 else 1) + _
  rw [hlast, hfirst, if_neg Bool.false_ne_true]
  omega

/-- From where the run before it rested, a run that returns reaches the target. -/
theorem runs_end (setting : EraSetting storage view txCount blockAt init createFolder host)
    (runs : List (Option (ℕ × ε))) {height : ℕ} {s : σ} (ready : Ready (view s) height)
    (hmax : height ≤ MAINNET_ERA_IMPORT_HEIGHT) :
    ∃ reached, height ≤ reached ∧ reached ≤ MAINNET_ERA_IMPORT_HEIGHT ∧
      Imported storage view txCount blockAt height reached s
        (Run.run (eraStep storage init createFolder host) runs s) ∧
      (Resting MAINNET_ERA_IMPORT_HEIGHT height →
        1 ≤ returned storage init createFolder host runs s → reached = MAINNET_ERA_IMPORT_HEIGHT) ∧
      (2 ≤ returned storage init createFolder host runs s →
        reached = MAINNET_ERA_IMPORT_HEIGHT) := by
  induction runs generalizing height s with
  | nil =>
    refine ⟨height, le_rfl, hmax, imported_self ready, ?_, ?_⟩
    · exact fun _ h => absurd h (Nat.not_succ_le_zero 0)
    · exact fun h => absurd h (Nat.not_succ_le_zero 1)
  | cons cut rest ih =>
    obtain ⟨middle, hends, -⟩ := runEra_ends setting cut ready hmax
    obtain ⟨reached, hle, hletarget, himported, hresting, htwice⟩ :=
      ih hends.imported.ready hends.le_target
    have hcount : returned storage init createFolder host (cut :: rest) s = _ :=
      returned_cons cut rest s
    refine ⟨reached, hends.le.trans hle, hletarget,
      hends.imported.trans hends.le hle himported, ?_, ?_⟩
    · intro hrests hreturned
      cases hfailed : failed (runEra storage init createFolder host cut s) with
      | true =>
        rw [hfailed] at hcount
        refine hresting ?_ (by simpa [hcount] using hreturned)
        rcases hends.resting with hsame | hmiddle
        · rw [hsame]
          exact hrests
        · exact hmiddle
      | false =>
        have htarget := (hends.done hfailed).2 hrests
        omega
    · intro hreturned
      cases hfailed : failed (runEra storage init createFolder host cut s) with
      | true =>
        rw [hfailed] at hcount
        exact htwice (by simpa [hcount] using hreturned)
      | false =>
        rw [hfailed] at hcount
        refine hresting (hends.done hfailed).1 ?_
        simp only [Bool.false_eq_true, ↓reduceIte] at hcount
        omega

/-- Whichever downloads break off, the runs store the blocks in order, each once; a run whose
download does not break off returns, and after two returned runs the target is reached. -/
theorem import_era_resumes
    (setting : EraSetting storage view txCount blockAt init createFolder host) {height : ℕ} {s : σ}
    (ready : Ready (view s) height) (hmax : height ≤ MAINNET_ERA_IMPORT_HEIGHT)
    (runs : List (Option (ℕ × ε))) :
    (∃ reached, height ≤ reached ∧ reached ≤ MAINNET_ERA_IMPORT_HEIGHT ∧
      Imported storage view txCount blockAt height reached s
        (Run.run (eraStep storage init createFolder host) runs s) ∧
      (2 ≤ returned storage init createFolder host runs s →
        reached = MAINNET_ERA_IMPORT_HEIGHT)) ∧
    failed (runEra storage init createFolder host none
      (Run.run (eraStep storage init createFolder host) runs s)) = false := by
  obtain ⟨reached, hle, hletarget, himported, -, htwice⟩ := runs_end setting runs ready hmax
  obtain ⟨_, -, hok⟩ := runEra_ends setting none himported.ready hletarget
  exact ⟨⟨reached, hle, hletarget, himported, htwice⟩, hok rfl⟩

end Runs

section Ledger

def emptyHost : EraHost String ℕ ℕ := ⟨3095, emptyFile⟩

theorem ledger_setting :
    EraSetting ledger id id emptyBlock (pure ()) (pure ()) emptyHost where
  healthy := ledger_healthy
  init := fun _ => delivers_pure rfl
  createFolder := fun _ => delivers_pure rfl
  files := fun k _ => eraFile_emptyFile k
  covers := by decide

/-- A download that breaks off after one file, then two that do not. -/
theorem import_era_resumes_ledger :
    EraSetting ledger id id emptyBlock (pure ()) (pure ()) emptyHost ∧
      Ready (id genesisLedger) 0 ∧
      (Run.run (eraStep ledger (pure ()) (pure ()) emptyHost)
        [some (1, "connection reset"), none, none] genesisLedger).height =
          some MAINNET_ERA_IMPORT_HEIGHT := by
  have ready : Ready (id genesisLedger) 0 := ⟨rfl, rfl, rfl⟩
  have hfirst := (import_era_resumes ledger_setting ready (by decide)
    [some (1, "connection reset")]).2
  have hsecond := (import_era_resumes ledger_setting ready (by decide)
    [some (1, "connection reset"), none]).2
  obtain ⟨reached, -, -, himported, htwice⟩ := (import_era_resumes ledger_setting ready (by decide)
    [some (1, "connection reset"), none, none]).1
  have hheight := himported.ready.height
  rw [htwice (two_le_returned _ _ hfirst hsecond), id_eq] at hheight
  exact ⟨ledger_setting, ready, hheight⟩

end Ledger

end RethGnosis
