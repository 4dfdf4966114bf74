import RethGnosis.Init.EnsureState

set_option autoImplicit false

/-!
# Attempts that run undisturbed

With a server that serves the published files, an attempt in which nothing goes wrong
returns, whatever the earlier ones left in the directory.
-/
namespace RethGnosis

open Crash

section Operations
variable {P : Dir → Prop} {name : FileName}

theorem completes_writeSome {bytes : Bytes} {Q : Dir → Prop}
    (h : ∀ d, P d → Q (appended name bytes d)) :
    Completes P (writeSome name bytes) (fun rest d => rest = none ∧ Q d) := by
  apply completes_act
  exact fun d hd => ⟨none, appended name bytes d, rfl, rfl, h d hd⟩

theorem completes_tolerate_removeFile :
    Completes P (tolerate (removeFile name)) (fun _ _ => True) := by
  unfold removeFile change
  exact completes_tolerate_act (fun _ _ _ _ _ => trivial) (fun _ _ _ _ _ => trivial)

theorem completes_tolerate_metadata :
    Completes P (tolerate (metadata name))
      (fun len d => P d ∧ len = (d.lookup name).map List.length) := by
  unfold metadata observe
  apply completes_tolerate_act
  · intro d len t hd hfull
    obtain ⟨hlen, rfl⟩ := Prod.mk.inj hfull
    refine ⟨hd, ?_⟩
    cases hcontent : d.lookup name with
    | none =>
      simp only [hcontent] at hlen
      cases hlen
    | some content =>
      simp only [hcontent] at hlen
      cases hlen
      rfl
  · intro d e t hd hfull
    obtain ⟨hlen, rfl⟩ := Prod.mk.inj hfull
    refine ⟨hd, ?_⟩
    cases hcontent : d.lookup name with
    | none => rfl
    | some content =>
      simp only [hcontent] at hlen
      cases hlen

theorem completes_fileExists :
    Completes P (fileExists name) (fun found d => P d ∧ found = (d.lookup name).isSome) := by
  refine completes_tolerate_metadata.bind (fun len => ?_)
  apply completes_pure
  rintro d ⟨hd, rfl⟩
  exact ⟨hd, Option.isSome_map⟩

theorem completes_fileHasSize {expected : ℕ} :
    Completes P (fileHasSize name expected)
      (fun sized d => P d ∧ sized = ((d.lookup name).map List.length == some expected)) := by
  refine completes_tolerate_metadata.bind (fun len => ?_)
  apply completes_pure
  rintro d ⟨hd, rfl⟩
  exact ⟨hd, rfl⟩

theorem completes_readFile {content : Bytes} :
    Completes (fun d => P d ∧ d.lookup name = some content) (readFile name)
      (fun read d => (P d ∧ d.lookup name = some content) ∧ read = content) := by
  apply completes_observe
  rintro d ⟨hd, hcontent⟩
  exact ⟨content, by simp only [hcontent], ⟨hd, hcontent⟩, rfl⟩

theorem completes_verifyFileHash {blake3 : Bytes → String} {expected : String} {content : Bytes} :
    Completes (fun d => P d ∧ d.lookup name = some content) (verifyFileHash blake3 name expected)
      (fun valid d => (P d ∧ d.lookup name = some content) ∧
        valid = (blake3 content == expected)) := by
  refine completes_readFile.tolerate.bind (fun opened => ?_)
  refine completes_exists (fun read => ?_)
  have hmeta : Completes (fun d => P d ∧ d.lookup name = some content) (metadata name)
      (fun _ d => P d ∧ d.lookup name = some content) := by
    apply completes_observe
    rintro d ⟨hd, hcontent⟩
    exact ⟨content.length, by simp only [hcontent], hd, hcontent⟩
  apply Completes.given
  rintro rfl
  refine (hmeta.pre (fun d hd => hd.1)).bind (fun _ => completes_readFile.bind (fun read => ?_))
  apply completes_pure
  rintro d ⟨hd, rfl⟩
  exact ⟨hd, rfl⟩

theorem completes_removeIfExists : Completes P (removeIfExists name) (fun _ _ => True) := by
  refine completes_fileExists.bind (fun found => Completes.ite (fun _ => ?_) (fun _ => ?_))
  · exact completes_tolerate_removeFile.bind (fun _ => completes_pure (fun _ _ => trivial))
  · exact completes_pure (fun _ _ => trivial)

theorem completes_checkIfExists {blake3 : Bytes → String} {expected : String} :
    Completes P (checkIfExists blake3 name expected)
      (fun valid d => valid = true →
        ∃ content, d.lookup name = some content ∧ blake3 content = expected) := by
  refine completes_fileExists.bind (fun found => Completes.ite (fun hfound => ?_) (fun _ => ?_))
  · have hpresent : ∀ d, P d ∧ found = (d.lookup name).isSome →
        ∃ content, True ∧ d.lookup name = some content := by
      rintro d ⟨-, hsome⟩
      rw [hfound] at hsome
      obtain ⟨content, hcontent⟩ := Option.isSome_iff_exists.mp hsome.symm
      exact ⟨content, trivial, hcontent⟩
    refine (completes_exists (fun content => ?_)).pre hpresent
    refine completes_verifyFileHash.post ?_
    rintro valid d ⟨⟨-, hcontent⟩, rfl⟩ hvalid
    exact ⟨content, hcontent, by simpa using hvalid⟩
  · exact completes_pure (fun _ _ hvalid => by cases hvalid)

theorem completes_writeAll {content bytes : Bytes} :
    Completes (fun d => d.lookup name = some content) (writeAll name bytes)
      (fun _ d => d.lookup name = some (content ++ bytes)) := by
  have hwrite : Completes (fun d => d.lookup name = some content) (writeSome name bytes)
      (fun rest d => rest = none ∧ d.lookup name = some (content ++ bytes)) :=
    completes_writeSome (fun d hd => lookup_appended hd)
  refine hwrite.bind (fun rest => ?_)
  apply Completes.given
  rintro rfl
  exact completes_pure (fun _ hd => hd)

theorem completes_createFile :
    Completes P (createFile name) (fun _ d => d.lookup name = some []) :=
  completes_change (fun d _ => ⟨d.insert name [], rfl, AList.lookup_insert d⟩)

theorem completes_renameFile {source target : FileName} {content : Bytes} :
    Completes (fun d => d.lookup source = some content) (renameFile source target)
      (fun _ d => d.lookup target = some content) := by
  apply completes_change
  intro d hd
  exact ⟨(d.erase source).insert target content, by simp only [hd], AList.lookup_insert _⟩

theorem completes_removeParts : Completes P removeParts (fun _ _ => True) := by
  have hkeys : Completes P (observe SetupError.io (fun d : Dir => .ok d.keys)) (fun _ _ => True) :=
    completes_observe (fun d _ => ⟨d.keys, rfl, trivial⟩)
  refine hkeys.bind (fun names => completes_forM (I := fun _ _ => True) (fun _ entry => ?_) [])
  refine completes_poll.bind (fun _ => Completes.ite (fun _ => ?_) (fun _ => ?_))
  · exact completes_tolerate_removeFile.bind (fun _ => completes_pure (fun _ _ => trivial))
  · exact completes_pure (fun _ _ => trivial)

end Operations

section Published
variable {blake3 : Bytes → String} {unzstd : Bytes → Decoded} {host : StateHost}
  {server : String → Option Response} {P : Dir → Prop}

variable (blake3 host server) in
/-- The server answers both requests with a body that has the expected hash. -/
structure ServesFiles : Prop where
  state : ∃ response, server host.stateUrl = some response ∧ response.complete = true ∧
    blake3 response.body = host.compressedStateHash
  header : ∃ response, server host.headerUrl = some response ∧ response.complete = true ∧
    blake3 response.body = host.headerHash

variable (blake3 unzstd host) in
/-- What has the archive's hash decompresses to the expected size. -/
def ArchiveDecodes : Prop :=
  ∀ archive, blake3 archive = host.compressedStateHash →
    (unzstd archive).complete = true ∧
      (unzstd archive).content.length = host.decompressedStateSize

theorem completes_downloadFile {url : String} {dest : FileName} {response : Response}
    (hserved : server url = some response) (hcomplete : response.complete = true) :
    Completes P (downloadFile server url dest)
      (fun _ d => d.lookup dest = some response.body) := by
  refine completes_createFile.bind (fun _ => ?_)
  rw [hserved]
  have hchunks : Completes (fun d => d.lookup dest.withExtensionPart = some [])
      (response.chunks.forM (writeAll dest.withExtensionPart))
      (fun _ d => d.lookup dest.withExtensionPart = some response.body) := by
    have hbody : ∀ before chunk, Completes
        (fun d : Dir => d.lookup dest.withExtensionPart = some before.flatten)
        (writeAll dest.withExtensionPart chunk)
        (fun _ d => d.lookup dest.withExtensionPart = some (before ++ [chunk]).flatten) := by
      intro before chunk
      rw [List.flatten_concat]
      exact completes_writeAll
    exact completes_forM hbody []
  refine hchunks.bind (fun _ => ?_)
  rw [hcomplete]
  exact completes_poll.bind (fun _ => completes_renameFile)

theorem completes_ensureCompressed (hserves : ServesFiles blake3 host server) :
    Completes P (ensureCompressed blake3 host server)
      (fun _ d => ∃ archive, blake3 archive = host.compressedStateHash ∧
        d.lookup .compressed = some archive) := by
  obtain ⟨response, hserved, hcomplete, hhash⟩ := hserves.state
  refine completes_checkIfExists.bind (fun valid => Completes.ite (fun hvalid => ?_) (fun _ => ?_))
  · apply completes_pure
    intro d hd
    obtain ⟨archive, hlookup, harchive⟩ := hd hvalid
    exact ⟨archive, harchive, hlookup⟩
  · refine completes_removeIfExists.bind (fun _ => ?_)
    refine (completes_downloadFile hserved hcomplete).mapError.bind (fun _ => ?_)
    have hverify : Completes (fun d => d.lookup .compressed = some response.body)
        (verifyFileHash blake3 .compressed host.compressedStateHash)
        (fun valid d => valid = true ∧ d.lookup .compressed = some response.body) := by
      refine completes_verifyFileHash.mono (fun d hd => ⟨trivial, hd⟩) ?_
      rintro valid d ⟨⟨-, hlookup⟩, rfl⟩
      exact ⟨by simpa using hhash, hlookup⟩
    refine hverify.bind (fun valid => Completes.given ?_)
    rintro rfl
    exact completes_pure (fun d hd => ⟨response.body, hhash, hd⟩)

theorem completes_flushBuf {name : FileName} {written buf : Bytes} :
    Completes (Buffered name written buf) (flushBuf name buf)
      (fun left d => left = ([], true) ∧ Buffered name written [] d) := by
  unfold flushBuf
  split
  · next hempty =>
    subst hempty
    exact completes_pure (fun d hd => ⟨rfl, hd⟩)
  · have hwrite : Completes (Buffered name written buf) (writeSome name buf)
        (fun rest d => rest = none ∧ Buffered name written [] d) := by
      apply completes_writeSome
      rintro d ⟨content, hcontent, rfl⟩
      exact ⟨content ++ buf, lookup_appended hcontent, List.append_nil _⟩
    refine hwrite.bind (fun rest => Completes.given ?_)
    rintro rfl
    exact completes_pure (fun d hd => ⟨rfl, hd⟩)

theorem completes_writeFlushed {name : FileName} {written buf bytes : Bytes}
    (hroom : BUF_CAPACITY ≤ bytes.length → buf = []) :
    Completes (Buffered name written buf) (writeFlushed name bytes (buf, true))
      (fun left d => left.2 = true ∧ Buffered name (written ++ bytes) left.1 d) := by
  change Completes _ (if BUF_CAPACITY ≤ bytes.length then _ else _) _
  split
  · next hlarge =>
    obtain rfl := hroom hlarge
    have hwrite : Completes (Buffered name written []) (writeSome name bytes)
        (fun rest d => rest = none ∧ Buffered name (written ++ bytes) [] d) := by
      apply completes_writeSome
      rintro d ⟨content, hcontent, rfl⟩
      exact ⟨content ++ bytes, lookup_appended hcontent, by simp⟩
    refine hwrite.bind (fun rest => Completes.given ?_)
    rintro rfl
    exact completes_pure (fun d hd => ⟨rfl, hd⟩)
  · apply completes_pure
    rintro d ⟨content, hcontent, rfl⟩
    exact ⟨rfl, content, hcontent, (List.append_assoc _ _ _).symm⟩

theorem completes_bufWriteAll {name : FileName} {written buf bytes : Bytes} :
    Completes (Buffered name written buf) (bufWriteAll name buf bytes)
      (fun left d => left.2 = true ∧ Buffered name (written ++ bytes) left.1 d) := by
  unfold bufWriteAll
  split
  · apply completes_pure
    rintro d ⟨content, hcontent, rfl⟩
    exact ⟨rfl, content, hcontent, (List.append_assoc _ _ _).symm⟩
  · next hfull =>
    split
    · refine completes_flushBuf.bind (fun flushed => Completes.given ?_)
      rintro rfl
      exact completes_writeFlushed (fun _ => rfl)
    · next hfits =>
      apply completes_writeFlushed
      intro hlarge
      have hsize : buf.length = 0 := by
        unfold BUF_CAPACITY at *
        omega
      exact List.length_eq_zero_iff.mp hsize

theorem completes_decompressLoop {name : FileName} (reads : List Bytes) (written buf : Bytes) :
    Completes (Buffered name written buf) (decompressLoop name true reads buf)
      (fun left d => left.2 = true ∧ Buffered name (written ++ reads.flatten) left.1 d) := by
  induction reads generalizing written buf with
  | nil =>
    apply completes_pure
    intro d hd
    exact ⟨rfl, by simpa using hd⟩
  | cons bytes rest ih =>
    refine completes_poll.tolerate.bind (fun readable => completes_exists (fun _ => ?_))
    refine Completes.given ?_
    rintro rfl
    refine completes_bufWriteAll.bind (fun left => Completes.given (fun hok => ?_))
    rw [if_pos hok, List.flatten_cons, ← List.append_assoc]
    exact ih (written ++ bytes) left.1

theorem completes_decompressZstd {input output : FileName} {archive : Bytes}
    (hcomplete : (unzstd archive).complete = true) :
    Completes (fun d => d.lookup input = some archive) (decompressZstd unzstd input output)
      (fun _ d => d.lookup output = some (unzstd archive).content) := by
  have hread : Completes (fun d => d.lookup input = some archive) (readFile input)
      (fun read _ => read = archive ∧ True) := by
    refine completes_readFile.mono (fun d hd => ⟨trivial, hd⟩) ?_
    rintro read d ⟨-, hsame⟩
    exact ⟨hsame, trivial⟩
  refine hread.bind (fun compressed => Completes.given ?_)
  rintro rfl
  rw [hcomplete]
  have hcreate : Completes (fun _ => True) (createFile output) (fun _ => Buffered output [] []) :=
    completes_createFile.post (fun _ d hd => ⟨[], hd, rfl⟩)
  refine hcreate.bind (fun _ => (completes_decompressLoop _ [] []).bind (fun left => ?_))
  refine Completes.given (fun hok => completes_flushBuf.bind (fun rest => ?_))
  rw [if_pos hok]
  apply completes_pure
  rintro d ⟨-, content, hcontent, hwritten⟩
  rw [hcontent, ← List.append_nil content, hwritten]
  rfl

theorem completes_unpackState {archive : Bytes} (hcomplete : (unzstd archive).complete = true)
    (hlength : (unzstd archive).content.length = host.decompressedStateSize) :
    Completes (fun d => d.lookup .compressed = some archive) (unpackState unzstd host)
      (fun _ _ => True) := by
  refine (completes_decompressZstd hcomplete).bind (fun _ => ?_)
  refine completes_renameFile.bind (fun _ => ?_)
  refine completes_fileHasSize.bind (fun sized => Completes.ite (fun _ => ?_) (fun hunsized => ?_))
  · exact completes_tolerate_removeFile.bind (fun _ => completes_pure (fun _ _ => trivial))
  · -- the size cannot differ
    rintro d ⟨hstate, hsized⟩
    rw [hstate, Option.map_some, hlength, hunsized] at hsized
    simp at hsized

theorem completes_ensureStateFile (hserves : ServesFiles blake3 host server)
    (hdecodes : ArchiveDecodes blake3 unzstd host) :
    Completes P (ensureStateFile blake3 unzstd host server) (fun _ _ => True) := by
  refine completes_fileHasSize.bind (fun complete => Completes.ite (fun _ => ?_) (fun _ => ?_))
  · exact completes_pure (fun _ _ => trivial)
  · refine (completes_ensureCompressed hserves).bind (fun _ => completes_exists (fun archive => ?_))
    apply Completes.given
    intro hhash
    obtain ⟨hcomplete, hlength⟩ := hdecodes archive hhash
    exact completes_unpackState hcomplete hlength

theorem completes_ensureHeader (hserves : ServesFiles blake3 host server) :
    Completes P (ensureHeader blake3 host server) (fun _ _ => True) := by
  obtain ⟨response, hserved, hcomplete, hhash⟩ := hserves.header
  refine completes_checkIfExists.bind (fun valid => Completes.ite (fun _ => ?_) (fun _ => ?_))
  · exact completes_pure (fun _ _ => trivial)
  · refine completes_removeIfExists.bind (fun _ => ?_)
    rw [hserved]
    change Completes _ (if response.complete = true then _ else _) _
    rw [if_pos hcomplete]
    refine completes_createFile.bind (fun _ => completes_writeAll.bind (fun _ => ?_))
    have hverify : Completes (fun d : Dir => d.lookup .header = some ([] ++ response.body))
        (verifyFileHash blake3 .header host.headerHash) (fun valid _ => valid = true ∧ True) := by
      refine completes_verifyFileHash.mono (fun d hd => ⟨trivial, hd⟩) ?_
      rintro valid d ⟨-, rfl⟩
      exact ⟨by simpa using hhash, trivial⟩
    refine hverify.bind (fun valid => Completes.given ?_)
    rintro rfl
    exact completes_pure (fun _ _ => trivial)

theorem completes_ensureState (hserves : ServesFiles blake3 host server)
    (hdecodes : ArchiveDecodes blake3 unzstd host) :
    Completes P (ensureState blake3 unzstd host server) (fun _ _ => True) := by
  refine completes_poll.bind (fun _ => completes_removeParts.bind (fun _ => ?_))
  exact (completes_ensureStateFile hserves hdecodes).bind (fun _ => completes_ensureHeader hserves)

/-- After any earlier attempts, cut off anywhere and answered anything, an undisturbed one
with a server that serves the published files returns, and `state.jsonl` is then complete. -/
theorem ensureState_recovers (blake3 : Bytes → String) (unzstd : Bytes → Decoded)
    (host : StateHost) (earlier : List Attempt) (server : String → Option Response) (d : Dir)
    (hfresh : d.lookup .state = none) (hserves : ServesFiles blake3 host server)
    (hdecodes : ArchiveDecodes blake3 unzstd host) :
    ∃ w, runAttempt blake3 unzstd host ⟨server, calm⟩
        (Run.run (afterAttempt blake3 unzstd host) earlier d) = .ok () w ∧
      ∃ archive header, blake3 archive = host.compressedStateHash ∧
        w.store.lookup .state = some (unzstd archive).content ∧
        w.store.lookup .header = some header ∧ blake3 header = host.headerHash := by
  obtain ⟨u, t, hrun, -⟩ := completes_ensureState (P := fun _ => True) hserves hdecodes
    (Run.run (afterAttempt blake3 unzstd host) earlier d) trivial
  refine ⟨⟨t, calm⟩, hrun, ?_⟩
  have hnone : NoForeignState blake3 unzstd host d := by
    intro bytes hbytes
    rw [hfresh] at hbytes
    cases hbytes
  obtain ⟨state, header, hready⟩ :=
    ensureState_spec.run_ok (afterAttempts_noForeignState earlier hnone) hrun
  obtain ⟨archive, hhash, -, hprefix⟩ := hready.unpacked
  have hlength : state.length = (unzstd archive).content.length :=
    hready.sized.trans (hdecodes archive hhash).2.symm
  refine ⟨archive, header, hhash, ?_, hready.headerFile, hready.verified⟩
  rw [hready.stateFile, hprefix.eq_of_length hlength]

end Published

theorem sampleServer_serves : ServesFiles sampleBlake3 sampleHost sampleServer where
  state := ⟨⟨[sampleArchive], true⟩, by decide +kernel, by decide +kernel, by decide +kernel⟩
  header := ⟨⟨[sampleHeader], true⟩, by decide +kernel, by decide +kernel, by decide +kernel⟩

theorem sampleArchive_decodes : ArchiveDecodes sampleBlake3 sampleUnzstd sampleHost := by
  intro archive hhash
  have harchive : archive = sampleArchive := by
    by_contra hother
    unfold sampleBlake3 at hhash
    rw [if_neg hother] at hhash
    split at hhash <;> exact absurd hhash (by decide)
  subst harchive
  exact ⟨rfl, rfl⟩

theorem ensureState_recovers_sample :
    ∃ w, runAttempt sampleBlake3 sampleUnzstd sampleHost ⟨sampleServer, calm⟩
        (Run.run (afterAttempt sampleBlake3 sampleUnzstd sampleHost) [cutAttempt] ∅) = .ok () w ∧
      ∃ archive header, sampleBlake3 archive = sampleHost.compressedStateHash ∧
        w.store.lookup .state = some (sampleUnzstd archive).content ∧
        w.store.lookup .header = some header ∧ sampleBlake3 header = sampleHost.headerHash :=
  ensureState_recovers sampleBlake3 sampleUnzstd sampleHost [cutAttempt] sampleServer ∅ rfl
    sampleServer_serves sampleArchive_decodes

end RethGnosis
