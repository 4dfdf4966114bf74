import Mathlib.Logic.Relation
import RethGnosis.Init.ImportFlag

set_option autoImplicit false

/-!
# Launches over the life of a data directory

Launches with and without the import option and deletions of the directory, in any order.
`imported.flag` is only there over a database that one launch imported from beginning to
end and that nothing but node runs changed since.
-/
namespace RethGnosis

open Crash

section Launches
variable {δ : Type} (S : Storage δ) (spec : DownloadStateSpec)
  (blake3 : Bytes → String) (unzstd : Bytes → Decoded) (host : StateHost)

/-- One launch of the program, with what the node does to the database if it gets to run, or
the deletion of the directory. -/
inductive DirStep (δ : Type) where
  | importLaunch (attempt : Attempt) (node : δ → δ)
  | plainLaunch (node : Option δ → δ)
  | deleteDatadir

def runLaunch (a : Attempt) (s : DataDir δ) :
    EStateM.Result (Halt LaunchError) (Scene (DataDir δ)) Unit :=
  downloadAndImportInitState S spec blake3 unzstd host a.server ⟨s, a.script⟩

def afterLaunch (node : δ → δ) :
    EStateM.Result (Halt LaunchError) (Scene (DataDir δ)) Unit → DataDir δ
  | .ok _ w => { w.store with db := w.store.db.map node }
  | .error _ w => w.store

def dirStep : DirStep δ → DataDir δ → DataDir δ
  | .importLaunch a node, s => afterLaunch node (runLaunch S spec blake3 unzstd host a s)
  | .plainLaunch node, s => { s with db := some (node s.db) }
  | .deleteDatadir, _ => ⟨∅, none, false⟩

structure ImportedDb (d : δ) (state header : Bytes) : Prop where
  sized : state.length = host.decompressedStateSize
  unpacked : Unpacked blake3 unzstd host state
  verified : blake3 header = host.headerHash
  fresh : importFresh S spec state header = some d
  checked : ∀ h, S.headerAt d spec.blockNum = some (some h) → h.stateRoot = spec.expectedStateRoot

variable {S spec blake3 unzstd host}

theorem triple_pathExists {P C : DataDir δ → Prop} {there : DataDir δ → Bool}
    (hcrash : ∀ s, P s → C s) :
    Triple P (pathExists there) (fun found s => P s ∧ (found = true → there s = true)) C := by
  have hlook : Triple P (observe LaunchError.io (fun s => if there s then .ok () else .error .io))
      (fun _ s => P s ∧ there s = true) P := by
    refine (triple_observe (fun _ hs => hs)).post ?_
    rintro u s ⟨hs, hthere⟩
    cases hfound : there s with
    | true => exact ⟨hs, rfl⟩
    | false =>
      simp only [hfound] at hthere
      cases hthere
  refine (hlook.tolerate.mono (fun _ hs => hs) (fun _ _ hq => hq) hcrash).bind (fun found => ?_)
  apply triple_pure
  rintro s (⟨u, rfl, hs, hthere⟩ | ⟨rfl, hs⟩)
  · exact ⟨hs, fun _ => hthere⟩
  · exact ⟨hs, fun hfound => by cases hfound⟩

/-- The tests for the two directories answer truthfully: neither is failed by the file
system. -/
def TestsAnswer (a : Attempt) : Prop :=
  (∀ k, a.script 0 ≠ .fails k) ∧ ∀ k, a.script 1 ≠ .fails k

theorem pathExists_answers {there : DataDir δ → Bool} {w : Scene (DataDir δ)}
    (hanswer : ∀ k, w.script 0 ≠ .fails k) {r : Bool} {v : Scene (DataDir δ)}
    (hrun : pathExists there w = .ok r v) :
    r = there w.store ∧ v = ⟨w.store, fun n => w.script (n + 1)⟩ := by
  obtain ⟨found, u, hattempt, hpure⟩ := Fallible.bind_ok.mp hrun
  cases hpure
  unfold tolerate observe act at hattempt
  cases hevent : w.script 0 with
  | done =>
    cases hthere : there w.store <;> simp only [hevent, hthere, conclude] at hattempt <;>
      cases hattempt <;> exact ⟨rfl, rfl⟩
  | fails k => exact absurd hevent (hanswer k)
  | stops k =>
    simp only [hevent] at hattempt
    cases hattempt

theorem databaseExists_answers {a : Attempt} (hanswer : TestsAnswer a) {s : DataDir δ} {r : Bool}
    {v : Scene (DataDir δ)} (hrun : databaseExists ⟨s, a.script⟩ = .ok r v) :
    r = s.db.isSome ∧ v.store = s := by
  obtain ⟨dir, u, hdir, hrest⟩ := Fallible.bind_ok.mp hrun
  obtain ⟨hsome, rfl⟩ := pathExists_answers hanswer.1 hdir
  cases dir with
  | true =>
    obtain ⟨hr, rfl⟩ := pathExists_answers hanswer.2 hrest
    exact ⟨hr, rfl⟩
  | false =>
    cases hrest
    cases hdb : s.db with
    | none => exact ⟨rfl, rfl⟩
    | some d => simp [hdb] at hsome

theorem databaseExists_stops {s : DataDir δ} {script : ℕ → Event} {e : Halt LaunchError}
    {v : Scene (DataDir δ)} (hrun : databaseExists ⟨s, script⟩ = .error e v) : v.store = s := by
  have hkeep : ∀ there, Triple (fun t => t = s) (pathExists there)
      (fun _ t => t = s) (fun t => t = s) := fun there =>
    (triple_pathExists (fun _ ht => ht)).post (fun _ _ hq => hq.1)
  have hboth : Triple (fun t => t = s) databaseExists (fun _ t => t = s) (fun t => t = s) :=
    (hkeep _).bind
      (fun dir => triple_ite (fun _ => hkeep _) (fun _ => triple_pure (fun _ ht => ht)))
  exact (hboth ⟨s, script⟩ rfl).2 e v hrun

variable (S spec blake3 unzstd host) in
/-- The flag is only there over an imported database, here with what node runs may make of
it. -/
def FlagSound (R : δ → δ → Prop) (s : DataDir δ) : Prop :=
  (s.flag = true → ∃ d₀ d state header, ImportedDb S spec blake3 unzstd host d₀ state header ∧
    s.db = some d ∧ Relation.ReflTransGen R d₀ d) ∧ NoForeignState blake3 unzstd host s.files

section Import
variable {R : δ → δ → Prop} {server : String → Option Response} {state header : Bytes} {d : δ}

variable (blake3 unzstd host) in
def Importing (state header : Bytes) (db : Option δ) (s : DataDir δ) : Prop :=
  s.flag = false ∧ FilesReady blake3 unzstd host s.files state header ∧ s.db = db

theorem FilesReady.noForeignState {files : Dir}
    (h : FilesReady blake3 unzstd host files state header) :
    NoForeignState blake3 unzstd host files := by
  intro bytes hbytes
  have hsame : state = bytes := Option.some.inj (h.stateFile.symm.trans hbytes)
  rw [← hsame]
  exact h.unpacked

theorem flagSound_of_no_flag {s : DataDir δ} (hflag : s.flag = false)
    (hfiles : NoForeignState blake3 unzstd host s.files) :
    FlagSound S spec blake3 unzstd host R s := by
  refine ⟨fun htrue => ?_, hfiles⟩
  rw [hflag] at htrue
  cases htrue

theorem Importing.flagSound {db : Option δ} {s : DataDir δ}
    (h : Importing blake3 unzstd host state header db s) :
    FlagSound S spec blake3 unzstd host R s := flagSound_of_no_flag h.1 h.2.1.noForeignState

theorem downloadFiles_spec :
    Triple (fun s : DataDir δ => (s.flag = false ∧ s.db = none) ∧
        NoForeignState blake3 unzstd host s.files)
      (downloadFiles blake3 unzstd host server)
      (fun _ s => ∃ state header, Importing blake3 unzstd host state header none s)
      (FlagSound S spec blake3 unzstd host R) := by
  have hstate : Triple (NoForeignState blake3 unzstd host)
      (mapError LaunchError.setupFailed (ensureState blake3 unzstd host server))
      (fun _ files => ∃ state header, FilesReady blake3 unzstd host files state header)
      (NoForeignState blake3 unzstd host) := ensureState_spec.mapError
  have hzoom : Triple (fun s : DataDir δ => (s.flag = false ∧ s.db = none) ∧
        NoForeignState blake3 unzstd host s.files)
      (downloadFiles blake3 unzstd host server) _ _ :=
    hstate.zoom (fun _ _ => rfl) (fun _ _ hs => hs)
  refine hzoom.mono (fun _ hs => hs) ?_ ?_
  · rintro _ s ⟨⟨hflag, hdb⟩, state, header, hready⟩
    exact ⟨state, header, hflag, hready, hdb⟩
  · rintro s ⟨⟨hflag, -⟩, hfiles⟩
    exact flagSound_of_no_flag hflag hfiles

/-- Whatever a call leaves of its work, the flag is not there yet. -/
theorem databaseAct_spec {complete : Option δ → Option δ} {partly : ℕ → Option δ → Option δ}
    {db : Option δ} :
    Triple (Importing blake3 unzstd host state header db) (databaseAct complete partly)
      (fun _ s => ∃ d, complete db = some d ∧
        Importing blake3 unzstd host state header (some d) s)
      (FlagSound S spec blake3 unzstd host R) := by
  apply triple_act
  · rintro s a t ⟨hflag, hready, rfl⟩ (hfull | ⟨k, hfails⟩)
    · cases hcomplete : complete s.db with
      | none =>
        simp only [hcomplete] at hfull
        cases hfull
      | some d =>
        simp only [hcomplete] at hfull
        cases hfull
        exact ⟨d, rfl, hflag, hready, rfl⟩
    · cases hfails
  · rintro s e t ⟨hflag, hready, rfl⟩ (hfull | ⟨k, hfails⟩)
    · cases hcomplete : complete s.db with
      | none =>
        simp only [hcomplete] at hfull
        cases hfull
        exact flagSound_of_no_flag hflag hready.noForeignState
      | some d =>
        simp only [hcomplete] at hfull
        cases hfull
    · cases hfails
      exact flagSound_of_no_flag hflag hready.noForeignState
  · exact fun s k hs => flagSound_of_no_flag hs.1 hs.2.1.noForeignState

theorem storageCall_spec {c : StorageCall} :
    Triple (Importing blake3 unzstd host state header (some d)) (storageCall S c)
      (fun _ s => ∃ d', S.call c d = some d' ∧
        Importing blake3 unzstd host state header (some d') s)
      (FlagSound S spec blake3 unzstd host R) := databaseAct_spec

theorem triple_inspect {α : Type} {P C : DataDir δ → Prop} {f : DataDir δ → Option α}
    (hcrash : ∀ s, P s → C s) :
    Triple P (inspect f) (fun a s => f s = some a ∧ P s) C := by
  refine (triple_observe hcrash).post ?_
  rintro a s ⟨hs, hread⟩
  cases hf : f s with
  | none =>
    simp only [hf] at hread
    cases hread
  | some b =>
    simp only [hf] at hread
    cases hread
    exact ⟨rfl, hs⟩

theorem setupHeader_spec {h : GnosisHeader} :
    Triple (Importing blake3 unzstd host state header (some d))
      (setupHeader S spec h (S.lastBlockNumber d))
      (fun _ s => ∃ d', headerSetup S spec h d = some d' ∧
        Importing blake3 unzstd host state header (some d') s)
      (FlagSound S spec blake3 unzstd host R) := by
  unfold setupHeader headerSetup
  split
  · refine storageCall_spec.bind (fun _ => triple_exists (fun d₁ => Triple.given (fun hset => ?_)))
    refine storageCall_spec.post ?_
    rintro _ s ⟨d₂, hcommit, hs⟩
    exact ⟨d₂, by rw [hset, Option.bind_some, hcommit], hs⟩
  · split
    · exact triple_fail (fun s hs => hs.flagSound)
    · exact triple_pure (fun s hs => ⟨d, rfl, hs⟩)

/-- An import that returns has made of a new database what its calls make of it when nothing
interrupts them. -/
theorem importState_spec :
    Triple (Importing blake3 unzstd host state header none) (importState S spec)
      (fun _ s => ∃ d, importFresh S spec state header = some d ∧
        Importing blake3 unzstd host state header (some d) s)
      (FlagSound S spec blake3 unzstd host R) := by
  have hcrash : ∀ db s, Importing blake3 unzstd host state header db s →
      FlagSound S spec blake3 unzstd host R s := fun _ _ hs => hs.flagSound
  refine databaseAct_spec.bind (fun _ => triple_exists (fun created => ?_))
  refine Triple.given (fun hinit => ?_)
  refine storageCall_spec.bind (fun _ => triple_exists (fun stored => ?_))
  refine Triple.given (fun hstored => ?_)
  refine (triple_inspect (hcrash _)).bind (fun decoded => ?_)
  have hheader : ∀ s, (s.files.lookup .header).bind S.decodeHeader = some decoded ∧
      Importing blake3 unzstd host state header (some stored) s →
      S.decodeHeader header = some decoded ∧
        Importing blake3 unzstd host state header (some stored) s := by
    rintro s ⟨hdecoded, hs⟩
    rw [hs.2.1.headerFile, Option.bind_some] at hdecoded
    exact ⟨hdecoded, hs⟩
  refine (Triple.given (fun hdecoded => ?_)).pre hheader
  refine (triple_inspect (hcrash _)).bind (fun last => ?_)
  have hlast : ∀ s, s.db.map S.lastBlockNumber = some last ∧
      Importing blake3 unzstd host state header (some stored) s →
      S.lastBlockNumber stored = last ∧
        Importing blake3 unzstd host state header (some stored) s := by
    rintro s ⟨hread, hs⟩
    rw [hs.2.2, Option.map_some] at hread
    exact ⟨Option.some.inj hread, hs⟩
  refine (Triple.given ?_).pre hlast
  rintro rfl
  refine setupHeader_spec.bind (fun _ => triple_exists (fun withHeader => ?_))
  refine Triple.given (fun hsetup => ?_)
  refine storageCall_spec.bind (fun _ => triple_exists (fun cleared => ?_))
  refine Triple.given (fun hcleared => ?_)
  refine (triple_inspect (hcrash _)).bind (fun dump => ?_)
  have hdump : ∀ s, s.files.lookup .state = some dump ∧
      Importing blake3 unzstd host state header (some cleared) s →
      state = dump ∧ Importing blake3 unzstd host state header (some cleared) s := by
    rintro s ⟨hread, hs⟩
    exact ⟨Option.some.inj (hs.2.1.stateFile.symm.trans hread), hs⟩
  refine (Triple.given ?_).pre hdump
  rintro rfl
  refine storageCall_spec.post ?_
  rintro _ s ⟨imported, himported, hs⟩
  refine ⟨imported, ?_, hs⟩
  unfold importFresh
  simp only [hinit, hstored, hdecoded, hsetup, hcleared, himported, Option.bind_eq_bind,
    Option.bind_some]

theorem checkImported_spec :
    Triple (Importing blake3 unzstd host state header (some d)) (checkImported S spec)
      (fun _ s => (∀ h, S.headerAt d spec.blockNum = some (some h) →
        h.stateRoot = spec.expectedStateRoot) ∧
          Importing blake3 unzstd host state header (some d) s)
      (FlagSound S spec blake3 unzstd host R) := by
  have hcrash : ∀ s, Importing blake3 unzstd host state header (some d) s →
      FlagSound S spec blake3 unzstd host R s := fun _ hs => hs.flagSound
  refine (triple_poll hcrash).bind (fun _ => (triple_inspect hcrash).bind (fun content => ?_))
  have hfound : ∀ s, s.db.bind (fun db => S.headerAt db spec.blockNum) = some content ∧
      Importing blake3 unzstd host state header (some d) s →
      S.headerAt d spec.blockNum = some content ∧
        Importing blake3 unzstd host state header (some d) s := by
    rintro s ⟨hread, hs⟩
    rw [hs.2.2, Option.bind_some] at hread
    exact ⟨hread, hs⟩
  refine (Triple.given (fun hread => ?_)).pre hfound
  cases content with
  | none =>
    apply triple_pure
    intro s hs
    refine ⟨fun h hh => ?_, hs⟩
    rw [hread] at hh
    cases hh
  | some found =>
    refine triple_ite (fun hroot => ?_) (fun _ => triple_fail hcrash)
    apply triple_pure
    intro s hs
    refine ⟨fun h hh => ?_, hs⟩
    have hsame : found = h := Option.some.inj (Option.some.inj (hread.symm.trans hh))
    rw [← hsame]
    simpa using hroot

theorem NoForeignState.erase {files : Dir} (h : NoForeignState blake3 unzstd host files)
    (name : FileName) : NoForeignState blake3 unzstd host (files.erase name) := by
  intro bytes hbytes
  by_cases hname : FileName.state = name
  · subst hname
    rw [AList.lookup_erase] at hbytes
    cases hbytes
  · rw [AList.lookup_erase_ne hname] at hbytes
    exact h bytes hbytes

theorem NoForeignState.eraseAll {files : Dir} (h : NoForeignState blake3 unzstd host files)
    (names : List FileName) :
    NoForeignState blake3 unzstd host (names.foldl (fun d name => d.erase name) files) := by
  induction names generalizing files with
  | nil => exact h
  | cons name rest ih => exact ih (h.erase name)

theorem importInitState_spec :
    Triple (fun s : DataDir δ => (s.flag = false ∧ s.db = none) ∧
        NoForeignState blake3 unzstd host s.files)
      (importInitState S spec blake3 unzstd host server)
      (fun _ s => s.flag = true ∧ FlagSound S spec blake3 unzstd host R s)
      (FlagSound S spec blake3 unzstd host R) := by
  refine downloadFiles_spec.bind (fun _ => ?_)
  refine triple_exists (fun state => triple_exists (fun header => ?_))
  refine importState_spec.bind (fun _ => triple_exists (fun d => Triple.given (fun hfresh => ?_)))
  refine checkImported_spec.bind (fun _ => Triple.given (fun hchecked => ?_))
  have hflag : Triple (Importing blake3 unzstd host state header (some d)) createFlag
      (fun _ s => s.flag = true ∧ FlagSound S spec blake3 unzstd host R s)
      (FlagSound S spec blake3 unzstd host R) := by
    apply triple_change (fun _ hs => hs.flagSound)
    rintro s t ⟨-, hready, hdb⟩ hset
    cases hset
    have himported : ImportedDb S spec blake3 unzstd host d state header :=
      ⟨hready.sized, hready.unpacked, hready.verified, hfresh, hchecked⟩
    exact ⟨rfl, fun _ => ⟨d, d, state, header, himported, hdb, .refl⟩, hready.noForeignState⟩
  refine hflag.bind (fun _ => ?_)
  unfold removeStateDir
  apply triple_act
  · rintro s u t ⟨hset, himported, hfiles⟩ (hfull | ⟨k, hfails⟩)
    · cases hfull
      refine ⟨hset, himported, fun bytes hbytes => ?_⟩
      cases hbytes
    · cases hfails
  · rintro s e t ⟨-, himported, hfiles⟩ (hfull | ⟨k, hfails⟩)
    · cases hfull
    · cases hfails
      exact ⟨himported, hfiles.eraseAll _⟩
  · rintro s k ⟨-, himported, hfiles⟩
    exact ⟨himported, hfiles.eraseAll _⟩

end Import

section Runs
variable {R : δ → δ → Prop}

theorem launch_of_database {a : Attempt} (hanswer : TestsAnswer a) {s : DataDir δ}
    (hdb : s.db.isSome = true) :
    (∀ u w, runLaunch S spec blake3 unzstd host a s = .ok u w → w.store = s ∧ s.flag = true) ∧
      ∀ e w, runLaunch S spec blake3 unzstd host a s = .error e w → w.store = s := by
  have hskip : Triple (fun t => t = s) skipImport (fun _ t => t = s ∧ s.flag = true)
      (fun t => t = s) := by
    refine (triple_pathExists (fun _ ht => ht)).bind (fun imported => triple_ite ?_ ?_)
    · intro himported
      apply triple_pure
      rintro t ⟨rfl, hset⟩
      exact ⟨rfl, hset himported⟩
    · exact fun _ => triple_fail (fun _ ht => ht.1)
  constructor
  · intro u w hrun
    obtain ⟨initialized, v, hfirst, hsecond⟩ := Fallible.bind_ok.mp hrun
    obtain ⟨hsome, hv⟩ := databaseExists_answers hanswer hfirst
    rw [hsome, hdb] at hsecond
    exact (hskip v hv).1 u w hsecond
  · intro e w hrun
    rcases Fallible.bind_error.mp hrun with hfirst | ⟨initialized, v, hfirst, hsecond⟩
    · exact databaseExists_stops hfirst
    · obtain ⟨hsome, hv⟩ := databaseExists_answers hanswer hfirst
      rw [hsome, hdb] at hsecond
      exact (hskip v hv).2 e w hsecond

theorem FlagSound.flag_of_no_database {s : DataDir δ}
    (h : FlagSound S spec blake3 unzstd host R s) (hdb : s.db = none) : s.flag = false := by
  cases hflag : s.flag with
  | false => rfl
  | true =>
    obtain ⟨d₀, d, state, header, -, hsome, -⟩ := h.1 hflag
    rw [hdb] at hsome
    cases hsome

theorem launch_of_no_database {a : Attempt} (hanswer : TestsAnswer a) {s : DataDir δ}
    (hsound : FlagSound S spec blake3 unzstd host R s) (hdb : s.db = none) :
    (∀ u w, runLaunch S spec blake3 unzstd host a s = .ok u w →
      w.store.flag = true ∧ FlagSound S spec blake3 unzstd host R w.store) ∧
      ∀ e w, runLaunch S spec blake3 unzstd host a s = .error e w →
        FlagSound S spec blake3 unzstd host R w.store := by
  have hfresh : ∀ v : Scene (DataDir δ), v.store = s →
      (v.store.flag = false ∧ v.store.db = none) ∧
        NoForeignState blake3 unzstd host v.store.files := by
    rintro v rfl
    exact ⟨⟨hsound.flag_of_no_database hdb, hdb⟩, hsound.2⟩
  constructor
  · intro u w hrun
    obtain ⟨initialized, v, hfirst, hsecond⟩ := Fallible.bind_ok.mp hrun
    obtain ⟨hsome, hv⟩ := databaseExists_answers hanswer hfirst
    rw [hsome, hdb] at hsecond
    exact (importInitState_spec v (hfresh v hv)).1 u w hsecond
  · intro e w hrun
    rcases Fallible.bind_error.mp hrun with hfirst | ⟨initialized, v, hfirst, hsecond⟩
    · rw [databaseExists_stops hfirst]
      exact hsound
    · obtain ⟨hsome, hv⟩ := databaseExists_answers hanswer hfirst
      rw [hsome, hdb] at hsecond
      exact (importInitState_spec v (hfresh v hv)).2 e w hsecond

theorem launch_spec {a : Attempt} (hanswer : TestsAnswer a) {s : DataDir δ}
    (hsound : FlagSound S spec blake3 unzstd host R s) :
    (∀ u w, runLaunch S spec blake3 unzstd host a s = .ok u w →
      w.store.flag = true ∧ FlagSound S spec blake3 unzstd host R w.store) ∧
      ∀ e w, runLaunch S spec blake3 unzstd host a s = .error e w →
        FlagSound S spec blake3 unzstd host R w.store := by
  cases hdb : s.db with
  | none => exact launch_of_no_database hanswer hsound hdb
  | some d =>
    have hsome : s.db.isSome = true := by rw [hdb]; rfl
    constructor
    · intro u w hrun
      obtain ⟨hsame, hflag⟩ := (launch_of_database hanswer hsome).1 u w hrun
      rw [hsame]
      exact ⟨hflag, hsound⟩
    · intro e w hrun
      rw [(launch_of_database hanswer hsome).2 e w hrun]
      exact hsound

/-- What is asked of a step: the tests of a launch answer, and node runs do what `R` says. -/
def Steady (R : δ → δ → Prop) : DirStep δ → Prop
  | .importLaunch a node => TestsAnswer a ∧ ∀ d, R d (node d)
  | .plainLaunch node => ∀ d, R d (node (some d))
  | .deleteDatadir => True

theorem FlagSound.step {step : DirStep δ} (hstep : Steady R step) {s : DataDir δ}
    (hsound : FlagSound S spec blake3 unzstd host R s) :
    FlagSound S spec blake3 unzstd host R (dirStep S spec blake3 unzstd host step s) := by
  cases step with
  | importLaunch a node =>
    obtain ⟨hok, herr⟩ := launch_spec hstep.1 hsound
    change FlagSound S spec blake3 unzstd host R
      (afterLaunch node (runLaunch S spec blake3 unzstd host a s))
    cases hrun : runLaunch S spec blake3 unzstd host a s with
    | ok u w =>
      obtain ⟨-, himported, hfiles⟩ := hok u w hrun
      refine ⟨fun hflag => ?_, hfiles⟩
      obtain ⟨d₀, d, state, header, hd₀, hd, hruns⟩ := himported hflag
      refine ⟨d₀, node d, state, header, hd₀, ?_, hruns.tail (hstep.2 d)⟩
      change w.store.db.map node = some (node d)
      rw [hd, Option.map_some]
    | error e w => exact herr e w hrun
  | plainLaunch node =>
    refine ⟨fun hflag => ?_, hsound.2⟩
    obtain ⟨d₀, d, state, header, hd₀, hd, hruns⟩ := hsound.1 hflag
    refine ⟨d₀, node (some d), state, header, hd₀, ?_, hruns.tail (hstep d)⟩
    change some (node s.db) = some (node (some d))
    rw [hd]
  | deleteDatadir =>
    apply flagSound_of_no_flag rfl
    intro bytes hbytes
    cases hbytes

theorem FlagSound.run {steps : List (DirStep δ)} (hsteps : ∀ step ∈ steps, Steady R step)
    {s : DataDir δ} (hsound : FlagSound S spec blake3 unzstd host R s) :
    FlagSound S spec blake3 unzstd host R
      (Run.run (dirStep S spec blake3 unzstd host) steps s) := by
  induction steps generalizing s with
  | nil => exact hsound
  | cons step rest ih =>
    rw [List.forall_mem_cons] at hsteps
    exact ih hsteps.2 (hsound.step hsteps.1)

def addBlock (d : SampleDb) : SampleDb := { d with last := d.last + 1 }

def sampleSteps : List (DirStep SampleDb) :=
  [.importLaunch cutAttempt addBlock, .deleteDatadir,
    .importLaunch ⟨sampleServer, calm⟩ addBlock]

theorem calm_answers {server : String → Option Response} : TestsAnswer ⟨server, calm⟩ :=
  ⟨fun _ h => (by cases h), fun _ h => (by cases h)⟩

theorem sampleSteps_steady :
    ∀ step ∈ sampleSteps, Steady (fun d d' : SampleDb => d.last ≤ d'.last) step := by
  have hcut : TestsAnswer cutAttempt := ⟨fun _ h => (by cases h), fun _ h => (by cases h)⟩
  simp only [sampleSteps, List.forall_mem_cons]
  exact ⟨⟨hcut, fun d => Nat.le_succ d.last⟩, trivial, ⟨calm_answers, fun d => Nat.le_succ d.last⟩,
    fun _ h => by cases h⟩

/-- In any order of launches and deletions, each launch cut off or failing anywhere, a launch
with the import option that goes on to the node has a database that one launch imported from
beginning to end out of verified files, and that only node runs changed since. -/
theorem node_starts_on_imported (S : Storage δ) (spec : DownloadStateSpec)
    (blake3 : Bytes → String) (unzstd : Bytes → Decoded) (host : StateHost) (R : δ → δ → Prop)
    (steps : List (DirStep δ)) (hsteps : ∀ step ∈ steps, Steady R step) (last : Attempt)
    (hanswer : TestsAnswer last) {w : Scene (DataDir δ)}
    (hstarts : runLaunch S spec blake3 unzstd host last
      (Run.run (dirStep S spec blake3 unzstd host) steps ⟨∅, none, false⟩) = .ok () w) :
    ∃ d₀ d state header, ImportedDb S spec blake3 unzstd host d₀ state header ∧
      w.store.db = some d ∧ Relation.ReflTransGen R d₀ d := by
  have hempty : FlagSound S spec blake3 unzstd host R ⟨∅, none, false⟩ := by
    apply flagSound_of_no_flag rfl
    intro bytes hbytes
    cases hbytes
  obtain ⟨hflag, hsound, -⟩ := (launch_spec hanswer (hempty.run hsteps)).1 () w hstarts
  exact hsound hflag

/-- A launch cut off in the download, a deletion, a complete import after which the node adds
a block, and a launch that finds the flag. -/
theorem node_starts_on_imported_sample :
    ∃ w, runLaunch sampleStorage sampleSpec sampleBlake3 sampleUnzstd sampleHost
        ⟨sampleServer, calm⟩
        (Run.run (dirStep sampleStorage sampleSpec sampleBlake3 sampleUnzstd sampleHost)
          sampleSteps ⟨∅, none, false⟩) = .ok () w ∧
      ∃ d₀ d state header, ImportedDb sampleStorage sampleSpec sampleBlake3 sampleUnzstd
        sampleHost d₀ state header ∧ w.store.db = some d ∧
        Relation.ReflTransGen (fun d d' => d.last ≤ d'.last) d₀ d := by
  have hreturns : Fallible.failed (runLaunch sampleStorage sampleSpec sampleBlake3 sampleUnzstd
      sampleHost ⟨sampleServer, calm⟩
      (Run.run (dirStep sampleStorage sampleSpec sampleBlake3 sampleUnzstd sampleHost)
        sampleSteps ⟨∅, none, false⟩)) = false := by
    decide +kernel
  obtain ⟨u, w, hw, -⟩ := Fallible.exists_ok hreturns
  exact ⟨w, hw, node_starts_on_imported sampleStorage sampleSpec sampleBlake3 sampleUnzstd
    sampleHost _ sampleSteps sampleSteps_steady ⟨sampleServer, calm⟩ calm_answers hw⟩

theorem dirStep_of_database {step : DirStep δ} (hstep : Steady R step)
    (hkept : step ≠ .deleteDatadir) {s : DataDir δ} {d : δ} (hdb : s.db = some d) :
    (dirStep S spec blake3 unzstd host step s).files = s.files ∧
      (dirStep S spec blake3 unzstd host step s).flag = s.flag ∧
      ∃ d', (dirStep S spec blake3 unzstd host step s).db = some d' ∧
        Relation.ReflTransGen R d d' := by
  have hsome : s.db.isSome = true := by rw [hdb]; rfl
  cases step with
  | importLaunch a node =>
    change (afterLaunch node (runLaunch S spec blake3 unzstd host a s)).files = s.files ∧
      (afterLaunch node (runLaunch S spec blake3 unzstd host a s)).flag = s.flag ∧
      ∃ d', (afterLaunch node (runLaunch S spec blake3 unzstd host a s)).db = some d' ∧ _
    cases hrun : runLaunch S spec blake3 unzstd host a s with
    | ok u w =>
      obtain ⟨rfl, -⟩ := (launch_of_database hstep.1 hsome).1 u w hrun
      refine ⟨rfl, rfl, node d, ?_, .single (hstep.2 d)⟩
      change w.store.db.map node = some (node d)
      rw [hdb, Option.map_some]
    | error e w =>
      obtain rfl := (launch_of_database hstep.1 hsome).2 e w hrun
      exact ⟨rfl, rfl, d, hdb, .refl⟩
  | plainLaunch node =>
    refine ⟨rfl, rfl, node (some d), ?_, .single (hstep d)⟩
    change some (node s.db) = some (node (some d))
    rw [hdb]
  | deleteDatadir => contradiction

/-- Once a directory has a database, no launch imports into it: until the directory is
deleted its files and the flag stay as they are, the database changes by node runs only, and
if the flag is missing no launch with the import option goes on to the node. -/
theorem database_imported_once (S : Storage δ) (spec : DownloadStateSpec)
    (blake3 : Bytes → String) (unzstd : Bytes → Decoded) (host : StateHost) (R : δ → δ → Prop)
    (steps : List (DirStep δ)) (hsteps : ∀ step ∈ steps, Steady R step ∧ step ≠ .deleteDatadir)
    (s : DataDir δ) (d : δ) (hdb : s.db = some d) :
    ∃ d', Relation.ReflTransGen R d d' ∧
      Run.run (dirStep S spec blake3 unzstd host) steps s = ⟨s.files, some d', s.flag⟩ ∧
      (s.flag = false → ∀ a, TestsAnswer a → ∀ u w, runLaunch S spec blake3 unzstd host a
        (Run.run (dirStep S spec blake3 unzstd host) steps s) ≠ .ok u w) := by
  have hrun : ∀ steps : List (DirStep δ), (∀ step ∈ steps, Steady R step ∧ step ≠ .deleteDatadir) →
      ∀ s : DataDir δ, ∀ d, s.db = some d → ∃ d', Relation.ReflTransGen R d d' ∧
        Run.run (dirStep S spec blake3 unzstd host) steps s = ⟨s.files, some d', s.flag⟩ := by
    intro steps
    induction steps with
    | nil =>
      rintro - ⟨files, db, flag⟩ d rfl
      exact ⟨d, .refl, rfl⟩
    | cons step rest ih =>
      intro hsteps s d hdb
      rw [List.forall_mem_cons] at hsteps
      obtain ⟨hfiles, hflag, d₁, hd₁, hfirst⟩ := dirStep_of_database hsteps.1.1 hsteps.1.2 hdb
      obtain ⟨d₂, hrest, hend⟩ := ih hsteps.2 _ d₁ hd₁
      refine ⟨d₂, hfirst.trans hrest, ?_⟩
      rw [Run.run, hend, hfiles, hflag]
  obtain ⟨d', hruns, hend⟩ := hrun steps hsteps s d hdb
  refine ⟨d', hruns, hend, fun hflag a hanswer u w hstarts => ?_⟩
  rw [hend] at hstarts
  have hset := ((launch_of_database hanswer rfl).1 u w hstarts).2
  rw [hflag] at hset
  cases hset

def interruptedDir : DataDir SampleDb := ⟨∅, some ⟨0, none, none⟩, false⟩

theorem database_imported_once_sample :
    ∃ d', Relation.ReflTransGen (fun d d' : SampleDb => d.last ≤ d'.last) ⟨0, none, none⟩ d' ∧
      Run.run (dirStep sampleStorage sampleSpec sampleBlake3 sampleUnzstd sampleHost)
        [.importLaunch ⟨sampleServer, calm⟩ addBlock] interruptedDir = ⟨∅, some d', false⟩ ∧
      (interruptedDir.flag = false → ∀ a, TestsAnswer a → ∀ u w,
        runLaunch sampleStorage sampleSpec sampleBlake3 sampleUnzstd sampleHost a
          (Run.run (dirStep sampleStorage sampleSpec sampleBlake3 sampleUnzstd sampleHost)
            [.importLaunch ⟨sampleServer, calm⟩ addBlock] interruptedDir) ≠ .ok u w) :=
  database_imported_once sampleStorage sampleSpec sampleBlake3 sampleUnzstd sampleHost _
    [.importLaunch ⟨sampleServer, calm⟩ addBlock]
    (List.forall_mem_singleton.mpr
      ⟨⟨calm_answers, fun d => Nat.le_succ d.last⟩, fun h => (by cases h)⟩)
    interruptedDir ⟨0, none, none⟩ rfl

end Runs

section Undisturbed
variable {P : DataDir δ → Prop} {state header : Bytes} {d : δ}
  {server : String → Option Response}

theorem completes_pathExists {there : DataDir δ → Bool} :
    Completes P (pathExists there) (fun found s => P s ∧ found = there s) := by
  have hlook : Completes P
      (tolerate (observe LaunchError.io (fun s => if there s then .ok () else .error .io)))
      (fun found s => P s ∧ found.isSome = there s) := by
    unfold observe
    apply completes_tolerate_act
    · intro s u t hs hfull
      cases hthere : there s <;> simp only [hthere] at hfull <;> cases hfull
      exact ⟨hs, hthere.symm⟩
    · intro s e t hs hfull
      cases hthere : there s <;> simp only [hthere] at hfull <;> cases hfull
      exact ⟨hs, hthere.symm⟩
  exact hlook.bind (fun found => completes_pure (fun s hs => hs))

theorem completes_databaseExists :
    Completes P databaseExists (fun found s => P s ∧ found = s.db.isSome) := by
  refine completes_pathExists.bind (fun dir => Completes.ite (fun _ => ?_) (fun hdir => ?_))
  · exact completes_pathExists.mono (fun s hs => hs.1) (fun _ _ hq => hq)
  · apply completes_pure
    rintro s ⟨hs, hnothing⟩
    refine ⟨hs, ?_⟩
    cases hdb : s.db with
    | none => rfl
    | some d => simp [hdir, hdb] at hnothing

theorem completes_inspect {α : Type} {f : DataDir δ → Option α} {a : α}
    (hf : ∀ s, P s → f s = some a) :
    Completes P (inspect f) (fun b s => b = a ∧ P s) := by
  apply completes_observe
  intro s hs
  exact ⟨a, by simp only [hf s hs], rfl, hs⟩

theorem completes_databaseAct {complete : Option δ → Option δ}
    {partly : ℕ → Option δ → Option δ} {db : Option δ} (hcomplete : complete db = some d) :
    Completes (Importing blake3 unzstd host state header db) (databaseAct complete partly)
      (fun _ => Importing blake3 unzstd host state header (some d)) := by
  apply completes_act
  rintro s ⟨hflag, hready, rfl⟩
  exact ⟨(), { s with db := some d }, by simp only [hcomplete], hflag, hready, rfl⟩

theorem completes_setupHeader {h : GnosisHeader} {withHeader : δ}
    (hsetup : headerSetup S spec h d = some withHeader) :
    Completes (Importing blake3 unzstd host state header (some d))
      (setupHeader S spec h (S.lastBlockNumber d))
      (fun _ => Importing blake3 unzstd host state header (some withHeader)) := by
  unfold setupHeader
  unfold headerSetup at hsetup
  split
  · next hempty =>
    rw [if_pos hempty] at hsetup
    obtain ⟨d₁, hset, hcommit⟩ := Option.bind_eq_some_iff.mp hsetup
    exact (completes_databaseAct hset).bind (fun _ => completes_databaseAct hcommit)
  · next hblocks =>
    rw [if_neg hblocks] at hsetup
    split
    · next hbelow =>
      rw [if_pos hbelow] at hsetup
      cases hsetup
    · next hbelow =>
      rw [if_neg hbelow] at hsetup
      cases hsetup
      exact completes_pure (fun _ hs => hs)

theorem completes_importState (hfresh : importFresh S spec state header = some d) :
    Completes (Importing blake3 unzstd host state header none) (importState S spec)
      (fun _ => Importing blake3 unzstd host state header (some d)) := by
  unfold importFresh at hfresh
  simp only [Option.bind_eq_bind, Option.bind_eq_some_iff] at hfresh
  obtain ⟨created, hinit, stored, hstored, decoded, hdecoded, withHeader, hsetup, cleared,
    hcleared, himported⟩ := hfresh
  have hheader : ∀ s : DataDir δ, Importing blake3 unzstd host state header (some stored) s →
      (s.files.lookup .header).bind S.decodeHeader = some decoded := by
    intro s hs
    rw [hs.2.1.headerFile, Option.bind_some, hdecoded]
  have hlast : ∀ s : DataDir δ, Importing blake3 unzstd host state header (some stored) s →
      s.db.map S.lastBlockNumber = some (S.lastBlockNumber stored) := by
    intro s hs
    rw [hs.2.2, Option.map_some]
  have hstate : ∀ s : DataDir δ, Importing blake3 unzstd host state header (some cleared) s →
      s.files.lookup .state = some state := fun s hs => hs.2.1.stateFile
  refine (completes_databaseAct hinit).bind (fun _ => ?_)
  refine (completes_databaseAct hstored).bind (fun _ => ?_)
  refine (completes_inspect hheader).bind (fun _ => Completes.given ?_)
  rintro rfl
  refine (completes_inspect hlast).bind (fun _ => Completes.given ?_)
  rintro rfl
  refine (completes_setupHeader hsetup).bind (fun _ => ?_)
  refine (completes_databaseAct hcleared).bind (fun _ => ?_)
  refine (completes_inspect hstate).bind (fun _ => Completes.given ?_)
  rintro rfl
  exact completes_databaseAct himported

theorem completes_checkImported {content : Option GnosisHeader}
    (hcontent : S.headerAt d spec.blockNum = some content)
    (hroot : ∀ h, content = some h → h.stateRoot = spec.expectedStateRoot) :
    Completes (Importing blake3 unzstd host state header (some d)) (checkImported S spec)
      (fun _ => Importing blake3 unzstd host state header (some d)) := by
  have hfound : ∀ s : DataDir δ, Importing blake3 unzstd host state header (some d) s →
      s.db.bind (fun db => S.headerAt db spec.blockNum) = some content := by
    intro s hs
    rw [hs.2.2, Option.bind_some, hcontent]
  refine completes_poll.bind (fun _ => (completes_inspect hfound).bind (fun found => ?_))
  apply Completes.given
  rintro rfl
  cases found with
  | none => exact completes_pure (fun _ hs => hs)
  | some h =>
    have hsame : (h.stateRoot == spec.expectedStateRoot) = true := by
      rw [hroot h rfl]
      exact beq_self_eq_true _
    change Completes _ (if (h.stateRoot == spec.expectedStateRoot) = true then _ else _) _
    rw [if_pos hsame]
    exact completes_pure (fun _ hs => hs)

variable (S spec blake3 unzstd host) in
/-- The storage layer takes every pair of verified files, and what it makes of them passes
the check of the header. -/
def StorageTakes : Prop :=
  ∀ state header, Unpacked blake3 unzstd host state →
    state.length = host.decompressedStateSize → blake3 header = host.headerHash →
    ∃ d content, importFresh S spec state header = some d ∧
      S.headerAt d spec.blockNum = some content ∧
      ∀ h, content = some h → h.stateRoot = spec.expectedStateRoot

theorem completes_importFiles (htakes : StorageTakes S spec blake3 unzstd host) :
    Completes (Importing blake3 unzstd host state header none)
      (do
        importState S spec
        checkImported S spec
        createFlag
        removeStateDir)
      (fun _ t => ∃ d state header, ImportedDb S spec blake3 unzstd host d state header ∧
        t = ⟨∅, some d, true⟩) := by
  have hverified : ∀ t : DataDir δ, Importing blake3 unzstd host state header none t →
      (Unpacked blake3 unzstd host state ∧ state.length = host.decompressedStateSize ∧
        blake3 header = host.headerHash) ∧ Importing blake3 unzstd host state header none t :=
    fun t ht => ⟨⟨ht.2.1.unpacked, ht.2.1.sized, ht.2.1.verified⟩, ht⟩
  refine (Completes.given ?_).pre hverified
  rintro ⟨hunpacked, hsized, hhash⟩
  obtain ⟨d, content, hfresh, hcontent, hroot⟩ := htakes state header hunpacked hsized hhash
  have himported : ImportedDb S spec blake3 unzstd host d state header := by
    refine ⟨hsized, hunpacked, hhash, hfresh, fun h hh => hroot h ?_⟩
    exact Option.some.inj (hcontent.symm.trans hh)
  refine (completes_importState hfresh).bind (fun _ => ?_)
  refine (completes_checkImported hcontent hroot).bind (fun _ => ?_)
  have hflag : Completes (Importing blake3 unzstd host state header (some d)) createFlag
      (fun _ t => t.db = some d ∧ t.flag = true) :=
    completes_change (fun t ht => ⟨{ t with flag := true }, rfl, ht.2.2, rfl⟩)
  refine hflag.bind (fun _ => completes_act ?_)
  rintro ⟨files, db, flag⟩ ⟨rfl, rfl⟩
  exact ⟨(), ⟨∅, some d, true⟩, rfl, d, state, header, himported, rfl⟩

theorem completes_downloadFiles (S : Storage δ) (spec : DownloadStateSpec)
    {server : String → Option Response}
    (hserves : ServesFiles blake3 host server) (hdecodes : ArchiveDecodes blake3 unzstd host) :
    Completes (fun t : DataDir δ => (t.flag = false ∧ t.db = none) ∧
        NoForeignState blake3 unzstd host t.files) (downloadFiles blake3 unzstd host server)
      (fun _ t => ∃ state header, Importing blake3 unzstd host state header none t) := by
  have hstate : Completes (NoForeignState blake3 unzstd host)
      (mapError LaunchError.setupFailed (ensureState blake3 unzstd host server))
      (fun _ _ => True) := (completes_ensureState hserves hdecodes).mapError
  have hzoom : Completes (fun t : DataDir δ => (t.flag = false ∧ t.db = none) ∧
      NoForeignState blake3 unzstd host t.files) (downloadFiles blake3 unzstd host server) _ :=
    hstate.zoom (fun _ _ => rfl) (fun _ _ ht => ht)
  have hspec : Triple _ (downloadFiles blake3 unzstd host server)
      (fun _ t => ∃ state header, Importing blake3 unzstd host state header none t)
      (FlagSound S spec blake3 unzstd host (fun _ _ => True)) := downloadFiles_spec
  exact (hzoom.and_triple hspec).post (fun _ _ hq => hq.2)

theorem completes_importInitState {server : String → Option Response}
    (hserves : ServesFiles blake3 host server) (hdecodes : ArchiveDecodes blake3 unzstd host)
    (htakes : StorageTakes S spec blake3 unzstd host) :
    Completes (fun t : DataDir δ => (t.flag = false ∧ t.db = none) ∧
        NoForeignState blake3 unzstd host t.files)
      (importInitState S spec blake3 unzstd host server)
      (fun _ t => ∃ d state header, ImportedDb S spec blake3 unzstd host d state header ∧
        t = ⟨∅, some d, true⟩) := by
  refine (completes_downloadFiles S spec hserves hdecodes).bind
    (fun _ => completes_exists (fun state => completes_exists (fun header => ?_)))
  exact completes_importFiles htakes

/-- As long as no launch has created the database, an undisturbed one with a server that
serves the published files imports it, sets the flag, removes the files and goes on to the
node, whatever the launches before it left behind. -/
theorem undisturbed_launch_imports (S : Storage δ) (spec : DownloadStateSpec)
    (blake3 : Bytes → String) (unzstd : Bytes → Decoded) (host : StateHost)
    (steps : List (DirStep δ)) (hsteps : ∀ step ∈ steps, Steady (fun _ _ => True) step)
    (hdb : (Run.run (dirStep S spec blake3 unzstd host) steps ⟨∅, none, false⟩).db = none)
    (server : String → Option Response) (hserves : ServesFiles blake3 host server)
    (hdecodes : ArchiveDecodes blake3 unzstd host)
    (htakes : StorageTakes S spec blake3 unzstd host) :
    ∃ d state header w, ImportedDb S spec blake3 unzstd host d state header ∧
      runLaunch S spec blake3 unzstd host ⟨server, calm⟩
        (Run.run (dirStep S spec blake3 unzstd host) steps ⟨∅, none, false⟩) = .ok () w ∧
      w.store = ⟨∅, some d, true⟩ := by
  have hempty : FlagSound S spec blake3 unzstd host (fun _ _ => True) ⟨∅, none, false⟩ := by
    apply flagSound_of_no_flag rfl
    intro bytes hbytes
    cases hbytes
  have hsound := hempty.run hsteps
  generalize Run.run (dirStep S spec blake3 unzstd host) steps ⟨∅, none, false⟩ = s at hdb hsound ⊢
  have hflag := hsound.flag_of_no_database hdb
  have hlaunch : Completes (fun t => t = s)
      (downloadAndImportInitState S spec blake3 unzstd host server)
      (fun _ t => ∃ d state header, ImportedDb S spec blake3 unzstd host d state header ∧
        t = ⟨∅, some d, true⟩) := by
    refine completes_databaseExists.bind (fun initialized => ?_)
    have hfresh : ∀ t : DataDir δ, t = s ∧ initialized = t.db.isSome →
        initialized = false ∧ (t.flag = false ∧ t.db = none) ∧
          NoForeignState blake3 unzstd host t.files := by
      rintro t ⟨rfl, hsome⟩
      rw [hdb] at hsome
      exact ⟨hsome, ⟨hflag, hdb⟩, hsound.2⟩
    refine (Completes.given ?_).pre hfresh
    rintro rfl
    exact completes_importInitState hserves hdecodes htakes
  obtain ⟨u, t, hrun, d, state, header, himported, rfl⟩ := hlaunch s rfl
  exact ⟨d, state, header, ⟨_, calm⟩, himported, hrun, rfl⟩

theorem sampleStorage_takes :
    StorageTakes sampleStorage sampleSpec sampleBlake3 sampleUnzstd sampleHost := by
  rintro state header - - hhash
  have hheader : header = sampleHeader := by
    by_contra hother
    unfold sampleBlake3 at hhash
    split at hhash <;> exact absurd hhash (by decide)
  subst hheader
  have hdecoded : sampleStorage.decodeHeader sampleHeader = some sampleDecoded := by
    decide +kernel
  refine ⟨⟨1, some sampleDecoded, some state⟩, some sampleDecoded, ?_, rfl, ?_⟩
  · unfold importFresh
    rw [hdecoded]
    rfl
  · rintro h hh
    cases hh
    rfl

theorem undisturbed_launch_imports_sample :
    ∃ d state header w,
      ImportedDb sampleStorage sampleSpec sampleBlake3 sampleUnzstd sampleHost d state header ∧
      runLaunch sampleStorage sampleSpec sampleBlake3 sampleUnzstd sampleHost ⟨sampleServer, calm⟩
        (Run.run (dirStep sampleStorage sampleSpec sampleBlake3 sampleUnzstd sampleHost)
          [.importLaunch cutAttempt addBlock] ⟨∅, none, false⟩) = .ok () w ∧
      w.store = ⟨∅, some d, true⟩ :=
  undisturbed_launch_imports sampleStorage sampleSpec sampleBlake3 sampleUnzstd sampleHost
    [.importLaunch cutAttempt addBlock]
    (List.forall_mem_singleton.mpr ⟨⟨fun _ h => (by cases h), fun _ h => (by cases h)⟩,
      fun _ => trivial⟩)
    (by decide +kernel) sampleServer sampleServer_serves sampleArchive_decodes sampleStorage_takes

end Undisturbed

end Launches

end RethGnosis
