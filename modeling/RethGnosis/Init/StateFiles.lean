import Mathlib.Algebra.Order.Ring.Nat
import Mathlib.Data.List.AList
import RethGnosis.Primitives
import RethGnosis.Library.CrashLogic

set_option autoImplicit false

/-!
# Downloading the initial state

`ensure_state` leaves `state.jsonl` and `header.rlp` in its directory, from whatever an
earlier attempt left there. The process can stop before and within each operation on the
directory, an operation can fail, and the server can answer anything. The hash function,
the decompressor and the server are parameters.
-/
namespace RethGnosis

open Crash (Prog act observe poll change fail tolerate mapError)

/-- The entries `ensure_state` works with, and the others in the directory. -/
inductive FileName where
  | header
  | state
  | compressed
  /-- `state.part` -/
  | statePart
  /-- `state.jsonl.part` -/
  | compressedPart
  | other (name : String)
deriving DecidableEq

namespace FileName

/-- `Path::file_stem`: the name up to its last dot, unless it starts with that one. -/
def fileStem (name : String) : String :=
  let stem := String.intercalate "." (name.splitOn ".").dropLast
  if stem = "" then name else stem

def partOf (stem : String) : FileName :=
  if stem = "state" then statePart
  else if stem = "state.jsonl" then compressedPart
  else other (stem ++ ".part")

/-- `Path::with_extension("part")`: the last extension is replaced. -/
def withExtensionPart : FileName → FileName
  | header => other "header.part"
  | state => statePart
  | compressed => compressedPart
  | statePart => statePart
  | compressedPart => compressedPart
  | other name => partOf (fileStem name)

def endsWithPart : FileName → Bool
  | statePart | compressedPart => true
  | header | state | compressed => false
  | other name => name.endsWith ".part"

end FileName

abbrev Dir := AList (fun _ : FileName => Bytes)

inductive SetupError where
  | io
  | network
  | context (text : String) (cause : SetupError)
  | bail (text : String)
deriving DecidableEq

abbrev DirProg := Prog SetupError Dir

/-- What the `match chain` tables of the module give for one chain. -/
structure StateHost where
  stateUrl : String
  headerUrl : String
  decompressedStateSize : ℕ
  compressedStateHash : String
  headerHash : String
deriving DecidableEq

/-- A body arrives in chunks and breaks off, or ends as it should. -/
structure Response where
  chunks : List Bytes
  complete : Bool
deriving DecidableEq

def Response.body (r : Response) : Bytes := r.chunks.flatten

/-- What the decoder's reads give, and whether the stream ends or the decoder reports an
error after them. -/
structure Decoded where
  reads : List Bytes
  complete : Bool
deriving DecidableEq

def Decoded.content (d : Decoded) : Bytes := d.reads.flatten

section Operations

def metadata (name : FileName) : DirProg ℕ :=
  observe .io (fun d =>
    match d.lookup name with
    | some content => .ok content.length
    | none => .error .io)

/-- `Path::exists`: an error counts as absent. -/
def fileExists (name : FileName) : DirProg Bool := do
  let found ← tolerate (metadata name)
  pure found.isSome

def fileHasSize (name : FileName) (expected : ℕ) : DirProg Bool := do
  let len ← tolerate (metadata name)
  pure (len == some expected)

def readFile (name : FileName) : DirProg Bytes :=
  observe .io (fun d =>
    match d.lookup name with
    | some content => .ok content
    | none => .error .io)

def createFile (name : FileName) : DirProg Unit :=
  change .io (fun d => .ok (d.insert name []))

def removeFile (name : FileName) : DirProg Unit :=
  change .io (fun d =>
    match d.lookup name with
    | some _ => .ok (d.erase name)
    | none => .error .io)

def renameFile (source target : FileName) : DirProg Unit :=
  change .io (fun d =>
    match d.lookup source with
    | some content => .ok ((d.erase source).insert target content)
    | none => .error .io)

def appended (name : FileName) (bytes : Bytes) (d : Dir) : Dir :=
  d.insert name ((d.lookup name).getD [] ++ bytes)

def writeSome (name : FileName) (bytes : Bytes) : DirProg (Option Bytes) :=
  act (fun d => (.ok none, appended name bytes d))
    (fun k d => (.ok (some (bytes.drop k)), appended name (bytes.take k) d))
    (fun k d => appended name (bytes.take k) d)

def writeAll (name : FileName) (bytes : Bytes) : DirProg Unit := do
  let rest ← writeSome name bytes
  if rest.isSome then fail .io else pure ()

end Operations

/-- An unreadable file counts as a mismatch, a read error is one. -/
def verifyFileHash (blake3 : Bytes → String) (name : FileName) (expectedHash : String) :
    DirProg Bool := do
  let opened ← tolerate (readFile name)
  if opened.isSome then do
    let _ ← metadata name
    let content ← readFile name
    pure (blake3 content == expectedHash)
  else pure false

section Decompress

/-- The default capacity of `BufWriter`. -/
def BUF_CAPACITY : ℕ := 8192

/-- `BufWriter::flush_buf`: what could not be written stays in the buffer. -/
def flushBuf (name : FileName) (buf : Bytes) : DirProg (Bytes × Bool) :=
  if buf = [] then pure ([], true)
  else do
    let rest ← writeSome name buf
    pure (rest.getD [], rest.isNone)

/-- `BufWriter::write_all`, on a buffer that was flushed if the bytes do not fit in it. -/
def writeFlushed (name : FileName) (bytes : Bytes) (flushed : Bytes × Bool) :
    DirProg (Bytes × Bool) :=
  if flushed.2 = false then pure flushed
  else if BUF_CAPACITY ≤ bytes.length then do
    let rest ← writeSome name bytes
    pure (flushed.1, rest.isNone)
  else pure (flushed.1 ++ bytes, true)

def bufWriteAll (name : FileName) (buf bytes : Bytes) : DirProg (Bytes × Bool) :=
  if bytes.length < BUF_CAPACITY - buf.length then pure (buf ++ bytes, true)
  else if BUF_CAPACITY - buf.length < bytes.length then do
    let flushed ← flushBuf name buf
    writeFlushed name bytes flushed
  else writeFlushed name bytes (buf, true)

/-- The loop of `decompress_zstd`: the bytes still buffered when it is left, and whether it
was left at the end of the stream. -/
def decompressLoop (name : FileName) (complete : Bool) :
    List Bytes → Bytes → DirProg (Bytes × Bool)
  | [], buf => pure (buf, complete)
  | bytes :: rest, buf => do
    let readable ← tolerate (poll .io)
    if readable.isNone then pure (buf, false)
    else do
      let written ← bufWriteAll name buf bytes
      if written.2 then decompressLoop name complete rest written.1
      else pure written

/-- The writer is dropped at the end, which flushes it; a failure of that flush is not
reported. -/
def decompressZstd (unzstd : Bytes → Decoded) (input output : FileName) : DirProg Unit := do
  let compressed ← readFile input
  createFile output
  let left ← decompressLoop output (unzstd compressed).complete (unzstd compressed).reads []
  let _ ← flushBuf output left.1
  if left.2 then pure () else fail .io

end Decompress

section EnsureState
variable (blake3 : Bytes → String) (unzstd : Bytes → Decoded) (host : StateHost)
  (server : String → Option Response)

def downloadFile (url : String) (dest : FileName) : DirProg Unit := do
  let tmp := dest.withExtensionPart
  createFile tmp
  match server url with
  | none => fail .network
  | some response => do
    response.chunks.forM (writeAll tmp)
    if response.complete then do
      poll .io
      renameFile tmp dest
    else fail .network

/-- Leftovers of interrupted attempts; one that cannot be removed is left. -/
def removePart (name : FileName) : DirProg PUnit := do
  poll .io
  if name.endsWithPart then do
    let _ ← tolerate (removeFile name)
    pure ()
  else pure ()

def removeParts : DirProg Unit := do
  let names ← observe .io (fun d => .ok d.keys)
  names.forM removePart

def checkIfExists (name : FileName) (expectedHash : String) : DirProg Bool := do
  let found ← fileExists name
  if found then verifyFileHash blake3 name expectedHash else pure false

def removeIfExists (name : FileName) : DirProg Unit := do
  let found ← fileExists name
  if found then do
    let _ ← tolerate (removeFile name)
    pure ()
  else pure ()

def downloadCompressed : DirProg Unit := do
  removeIfExists .compressed
  mapError (.context "failed to download compressed state")
    (downloadFile server host.stateUrl .compressed)
  let valid ← verifyFileHash blake3 .compressed host.compressedStateHash
  if valid then pure ()
  else do
    let _ ← tolerate (removeFile .compressed)
    fail (.bail "compressed state hash mismatch - file corrupted")

def unpackState : DirProg Unit := do
  decompressZstd unzstd .compressed .statePart
  renameFile .statePart .state
  let sized ← fileHasSize .state host.decompressedStateSize
  if sized then do
    let _ ← tolerate (removeFile .compressed)
    pure ()
  else fail (.bail "decompressed state size mismatch")

def ensureCompressed : DirProg Unit := do
  let compressedValid ← checkIfExists blake3 .compressed host.compressedStateHash
  if compressedValid then pure () else downloadCompressed blake3 host server

def ensureStateFile : DirProg Unit := do
  let complete ← fileHasSize .state host.decompressedStateSize
  if complete then pure ()
  else do
    ensureCompressed blake3 host server
    unpackState unzstd host

/-- The body is collected before anything is written. -/
def downloadHeader : DirProg Unit := do
  removeIfExists .header
  match server host.headerUrl with
  | none => fail .network
  | some response =>
    if response.complete then do
      createFile .header
      writeAll .header response.body
      let valid ← verifyFileHash blake3 .header host.headerHash
      if valid then pure ()
      else do
        let _ ← tolerate (removeFile .header)
        fail (.bail "header hash mismatch - file corrupted")
    else fail .network

def ensureHeader : DirProg Unit := do
  let headerValid ← checkIfExists blake3 .header host.headerHash
  if headerValid then pure () else downloadHeader blake3 host server

def ensureState : DirProg Unit := do
  poll .io
  removeParts
  ensureStateFile blake3 unzstd host server
  ensureHeader blake3 host server

end EnsureState

end RethGnosis
