import RethGnosis.Init.Recovery

set_option autoImplicit false

/-!
# The import of the initial state

`download_and_import_init_state` runs before the node when the import option is given. It
tells by `db` and `imported.flag` what earlier launches did. The storage calls and the
header codec are parameters; a call that does not return may leave any part of its work.
-/
namespace RethGnosis

open Crash (Prog act observe poll change fail tolerate mapError zoom)

structure DownloadStateSpec where
  expectedStateRoot : B256
  blockNum : ℕ
  headerHash : B256
deriving DecidableEq

inductive StorageCall where
  | writeStorageSettings
  | setupWithoutEvm (header : GnosisHeader) (hash : B256)
  | commitStaticFiles
  | clearStateTables
  | initFromStateDump (state : Bytes)
deriving DecidableEq

/-- What the storage layer does: `env.init` on a directory with or without a database, the
calls, and what is left of either when it does not return. `headerAt` is `none` where it
fails. -/
structure Storage (δ : Type) where
  init : Option δ → Option δ
  partlyInit : ℕ → Option δ → Option δ
  call : StorageCall → δ → Option δ
  partly : StorageCall → ℕ → δ → δ
  lastBlockNumber : δ → ℕ
  headerAt : δ → ℕ → Option (Option GnosisHeader)
  decodeHeader : Bytes → Option GnosisHeader

structure DataDir (δ : Type) where
  files : Dir
  db : Option δ
  flag : Bool

/-- Where a launch ends before the node: with exit code 1 after a message, except that
`panicked` is an error that was unwrapped. -/
inductive LaunchError where
  | io
  /-- "State looks misconfigured, please delete the following directory and try again:" -/
  | misconfigured
  /-- "state setup failed: {e}" -/
  | setupFailed (cause : SetupError)
  | panicked
  /-- "reth::cli: Header hash mismatch, expected {}, got {}" -/
  | headerMismatch (expected got : B256)
  /-- "Failed to create {IMPORTED_FLAG} file: {e}" -/
  | flagNotCreated
  /-- "Failed to delete state directory: {e}" -/
  | stateDirNotDeleted
deriving DecidableEq

abbrev LaunchProg (δ : Type) := Prog LaunchError (DataDir δ)

section Launch
variable {δ : Type} (S : Storage δ) (spec : DownloadStateSpec)

def pathExists (there : DataDir δ → Bool) : LaunchProg δ Bool := do
  let found ← tolerate (observe .io (fun s => if there s then .ok () else .error .io))
  pure found.isSome

/-- `datadir.exists() && db_dir.exists()` -/
def databaseExists : LaunchProg δ Bool := do
  let dir ← pathExists (fun s => s.db.isSome || s.flag || !s.files.keys.isEmpty)
  if dir then pathExists (fun s => s.db.isSome) else pure false

/-- A call that changes the database, or leaves part of its work and an error that is
unwrapped. -/
def databaseAct (complete : Option δ → Option δ) (partly : ℕ → Option δ → Option δ) :
    LaunchProg δ Unit :=
  act
    (fun s =>
      match complete s.db with
      | some d => (.ok (), { s with db := some d })
      | none => (.error .panicked, { s with db := partly 0 s.db }))
    (fun k s => (.error .panicked, { s with db := partly k s.db }))
    (fun k s => { s with db := partly k s.db })

def openDatabase : LaunchProg δ Unit := databaseAct S.init S.partlyInit

def storageCall (c : StorageCall) : LaunchProg δ Unit :=
  databaseAct (fun db => db.bind (S.call c)) (fun k db => db.map (S.partly c k))

def inspect {α : Type} (f : DataDir δ → Option α) : LaunchProg δ α :=
  observe .panicked (fun s =>
    match f s with
    | some a => .ok a
    | none => .error .panicked)

/-- An empty database gets the header; one that has blocks below it is refused. -/
def setupHeader (header : GnosisHeader) (lastBlockNumber : ℕ) : LaunchProg δ Unit :=
  if lastBlockNumber = 0 then do
    storageCall S (.setupWithoutEvm header spec.headerHash)
    storageCall S .commitStaticFiles
  else if lastBlockNumber < header.number then fail .panicked
  else pure ()

def importState : LaunchProg δ Unit := do
  openDatabase S
  storageCall S .writeStorageSettings
  let header ← inspect (fun s => (s.files.lookup .header).bind S.decodeHeader)
  let lastBlockNumber ← inspect (fun s => s.db.map S.lastBlockNumber)
  setupHeader S spec header lastBlockNumber
  storageCall S .clearStateTables
  let state ← inspect (fun s => s.files.lookup .state)
  storageCall S (.initFromStateDump state)

/-- A header that is not found is reported and accepted. -/
def checkImported : LaunchProg δ Unit := do
  poll .panicked
  let content ← inspect (fun s => s.db.bind (fun d => S.headerAt d spec.blockNum))
  match content with
  | some header =>
    if header.stateRoot == spec.expectedStateRoot then pure ()
    else fail (.headerMismatch spec.expectedStateRoot header.stateRoot)
  | none => pure ()

def createFlag : LaunchProg δ Unit :=
  change .flagNotCreated (fun s => .ok { s with flag := true })

def eraseSome (k : ℕ) (files : Dir) : Dir :=
  (files.keys.take k).foldl (fun d name => d.erase name) files

/-- `remove_dir_all` on the downloaded files; it may remove some of them and fail. -/
def removeStateDir : LaunchProg δ Unit :=
  act (fun s => (.ok (), { s with files := ∅ }))
    (fun k s => (.error .stateDirNotDeleted, { s with files := eraseSome k s.files }))
    (fun k s => { s with files := eraseSome k s.files })

variable (blake3 : Bytes → String) (unzstd : Bytes → Decoded) (host : StateHost)
  (server : String → Option Response)

def downloadFiles : LaunchProg δ Unit :=
  zoom DataDir.files (fun files s => { s with files := files })
    (mapError LaunchError.setupFailed (ensureState blake3 unzstd host server))

def importInitState : LaunchProg δ Unit := do
  downloadFiles blake3 unzstd host server
  importState S spec
  checkImported S spec
  createFlag
  removeStateDir

def skipImport : LaunchProg δ Unit := do
  let imported ← pathExists (fun s => s.flag)
  if imported then pure () else fail .misconfigured

/-- The node runs afterwards exactly when this returns. -/
def downloadAndImportInitState : LaunchProg δ Unit := do
  let initialized ← databaseExists
  if initialized then skipImport else importInitState S spec blake3 unzstd host server

def headerSetup (header : GnosisHeader) (d : δ) : Option δ :=
  if S.lastBlockNumber d = 0 then
    (S.call (.setupWithoutEvm header spec.headerHash) d).bind (S.call .commitStaticFiles)
  else if S.lastBlockNumber d < header.number then none
  else some d

def importFresh (state header : Bytes) : Option δ := do
  let created ← S.init none
  let stored ← S.call .writeStorageSettings created
  let decoded ← S.decodeHeader header
  let withHeader ← headerSetup S spec decoded stored
  let cleared ← S.call .clearStateTables withHeader
  S.call (.initFromStateDump state) cleared

end Launch

section Sample

structure SampleDb where
  last : ℕ
  header : Option GnosisHeader
  dump : Option Bytes
deriving DecidableEq

def sampleDecoded : GnosisHeader :=
  { (default : GnosisHeader) with
    number := 1, mixHash := some 0, nonce := some 0, baseFeePerGas := some 7 }

def sampleCall : StorageCall → SampleDb → Option SampleDb
  | .writeStorageSettings, d => some d
  | .setupWithoutEvm header _, d => some { d with last := header.number, header := some header }
  | .commitStaticFiles, d => some d
  | .clearStateTables, d => some { d with dump := none }
  | .initFromStateDump state, d => some { d with dump := some state }

def sampleStorage : Storage SampleDb where
  init db := some (db.getD ⟨0, none, none⟩)
  partlyInit _ db := db
  call := sampleCall
  partly _ _ d := d
  lastBlockNumber d := d.last
  headerAt d number := some (d.header.filter (fun header => header.number == number))
  decodeHeader bytes := if bytes = sampleHeader then some sampleDecoded else none

def sampleSpec : DownloadStateSpec := ⟨0, 1, 0⟩

end Sample

end RethGnosis
