import RethGnosis.Init.StateFiles
import RethGnosis.Library.Run

set_option autoImplicit false

/-!
# What an attempt leaves behind

Only the rename of `state.part` changes `state.jsonl`, and it moves decompressed bytes of
an archive with the expected hash there. Every other operation leaves it as it is,
wherever the attempt is cut off.
-/
namespace RethGnosis

open Crash

theorem lookup_appended {name : FileName} {bytes content : Bytes} {d : Dir}
    (h : d.lookup name = some content) :
    (appended name bytes d).lookup name = some (content ++ bytes) := by
  rw [appended, AList.lookup_insert, h, Option.getD_some]

theorem lookup_appended_ne {name other : FileName} {bytes : Bytes} {d : Dir}
    (h : other ≠ name) : (appended name bytes d).lookup other = d.lookup other :=
  AList.lookup_insert_ne h

section Operations
variable {P C : Dir → Prop}

theorem triple_writeSome {name : FileName} {bytes : Bytes}
    (hcrash : ∀ d k, P d → C (appended name (bytes.take k) d)) :
    Triple P (writeSome name bytes)
      (fun rest d' => ∃ d part, P d ∧ part ++ rest.getD [] = bytes ∧ d' = appended name part d)
      C := by
  apply triple_act
  · rintro d rest t hd (hfull | ⟨k, hfails⟩)
    · cases hfull
      exact ⟨d, bytes, hd, List.append_nil bytes, rfl⟩
    · cases hfails
      exact ⟨d, bytes.take k, hd, List.take_append_drop k bytes, rfl⟩
  · rintro d e t hd (hfull | ⟨k, hfails⟩)
    · cases hfull
    · cases hfails
  · exact fun d k hd => hcrash d k hd

theorem triple_fileExists {name : FileName} (hcrash : ∀ d, P d → C d) :
    Triple P (fileExists name) (fun _ => P) C := by
  have hlook : Triple P (metadata name) (fun _ => P) P :=
    (triple_observe (fun _ hd => hd)).post (fun _ _ hq => hq.1)
  refine (hlook.tolerate.mono (fun _ hp => hp) (fun _ _ hq => hq) hcrash).bind ?_
  rintro found
  apply triple_pure
  rintro d (⟨len, -, hd⟩ | ⟨-, hd⟩) <;> exact hd

theorem triple_fileHasSize {name : FileName} {expected : ℕ} (hcrash : ∀ d, P d → C d) :
    Triple P (fileHasSize name expected)
      (fun sized d => P d ∧
        (sized = true → ∃ content, d.lookup name = some content ∧ content.length = expected))
      C := by
  have hlook : Triple P (metadata name)
      (fun len d => P d ∧ ∃ content, d.lookup name = some content ∧ content.length = len) P := by
    refine (triple_observe (fun _ hd => hd)).post ?_
    rintro len d ⟨hd, hlen⟩
    cases hcontent : d.lookup name with
    | none =>
      simp only [hcontent] at hlen
      cases hlen
    | some content =>
      simp only [hcontent] at hlen
      cases hlen
      exact ⟨hd, content, rfl, rfl⟩
  refine (hlook.tolerate.mono (fun _ hp => hp) (fun _ _ hq => hq) hcrash).bind ?_
  rintro len
  apply triple_pure
  rintro d (⟨n, rfl, hd, content, hcontent, rfl⟩ | ⟨rfl, hd⟩)
  · refine ⟨hd, fun hsized => ⟨content, hcontent, ?_⟩⟩
    simpa using hsized
  · exact ⟨hd, fun hsized => by simp at hsized⟩

theorem triple_readFile {name : FileName} (hcrash : ∀ d, P d → C d) :
    Triple P (readFile name) (fun content d => P d ∧ d.lookup name = some content) C := by
  refine (triple_observe hcrash).post ?_
  rintro content d ⟨hd, hread⟩
  cases hcontent : d.lookup name with
  | none =>
    simp only [hcontent] at hread
    cases hread
  | some found =>
    simp only [hcontent] at hread
    cases hread
    exact ⟨hd, rfl⟩

theorem triple_verifyFileHash {blake3 : Bytes → String} {name : FileName} {expected : String}
    (hcrash : ∀ d, P d → C d) :
    Triple P (verifyFileHash blake3 name expected)
      (fun valid d => P d ∧
        (valid = true → ∃ content, d.lookup name = some content ∧ blake3 content = expected))
      C := by
  have hopen : Triple P (tolerate (readFile name)) (fun _ => P) C := by
    have hread : Triple P (readFile name) (fun _ => P) P :=
      (triple_readFile (fun _ hd => hd)).post (fun _ _ hq => hq.1)
    refine hread.tolerate.mono (fun _ hp => hp) ?_ hcrash
    rintro r d (⟨content, -, hd⟩ | ⟨-, hd⟩) <;> exact hd
  refine hopen.bind (fun opened => triple_ite (fun _ => ?_) (fun _ => ?_))
  · have hmeta : Triple P (metadata name) (fun _ => P) C :=
      (triple_observe hcrash).post (fun _ _ hq => hq.1)
    refine hmeta.bind (fun _ => (triple_readFile hcrash).bind (fun content => ?_))
    apply triple_pure
    rintro d ⟨hd, hcontent⟩
    exact ⟨hd, fun hvalid => ⟨content, hcontent, by simpa using hvalid⟩⟩
  · apply triple_pure
    exact fun d hd => ⟨hd, fun hvalid => by cases hvalid⟩

end Operations

def StateIs (x : Option Bytes) (d : Dir) : Prop := d.lookup .state = x

section OtherFiles
variable {x : Option Bytes} {d : Dir} {name : FileName}

theorem StateIs.insert {content : Bytes} (h : StateIs x d) (hname : name ≠ .state) :
    StateIs x (d.insert name content) := (AList.lookup_insert_ne hname.symm).trans h

theorem StateIs.appended {bytes : Bytes} (h : StateIs x d) (hname : name ≠ .state) :
    StateIs x (appended name bytes d) := (lookup_appended_ne hname.symm).trans h

theorem StateIs.erase (h : StateIs x d) (hname : name ≠ .state) : StateIs x (d.erase name) :=
  (AList.lookup_erase_ne hname.symm).trans h

theorem createFile_spec (hname : name ≠ .state) :
    Triple (StateIs x) (createFile name) (fun _ d => StateIs x d ∧ d.lookup name = some [])
      (StateIs x) := by
  apply triple_change (fun _ hd => hd)
  intro d d' hd hcreated
  cases hcreated
  exact ⟨hd.insert hname, AList.lookup_insert d⟩

theorem removeFile_spec (hname : name ≠ .state) :
    Triple (StateIs x) (removeFile name) (fun _ => StateIs x) (StateIs x) := by
  apply triple_change (fun _ hd => hd)
  intro d d' hd hremoved
  cases hcontent : d.lookup name with
  | none =>
    simp only [hcontent] at hremoved
    cases hremoved
  | some content =>
    simp only [hcontent] at hremoved
    cases hremoved
    exact hd.erase hname

theorem tolerate_removeFile_spec (hname : name ≠ .state) :
    Triple (StateIs x) (tolerate (removeFile name)) (fun _ => StateIs x) (StateIs x) := by
  refine (removeFile_spec hname).tolerate.post ?_
  rintro r d (⟨a, -, hd⟩ | ⟨-, hd⟩) <;> exact hd

theorem removeIfExists_spec (hname : name ≠ .state) :
    Triple (StateIs x) (removeIfExists name) (fun _ => StateIs x) (StateIs x) := by
  refine (triple_fileExists (fun _ hd => hd)).bind (fun found => triple_ite (fun _ => ?_) ?_)
  · exact (tolerate_removeFile_spec hname).bind (fun _ => triple_pure (fun _ hd => hd))
  · exact fun _ => triple_pure (fun _ hd => hd)

theorem writeAll_spec {bytes : Bytes} (hname : name ≠ .state) :
    Triple (StateIs x) (writeAll name bytes) (fun _ => StateIs x) (StateIs x) := by
  refine (triple_writeSome (fun d k hd => hd.appended hname)).bind (fun rest => ?_)
  have hkept : ∀ d', (∃ d part, StateIs x d ∧ part ++ rest.getD [] = bytes ∧
      d' = RethGnosis.appended name part d) → StateIs x d' := by
    rintro d' ⟨d, part, hd, -, rfl⟩
    exact hd.appended hname
  exact triple_ite (fun _ => triple_fail hkept) (fun _ => triple_pure hkept)

theorem checkIfExists_spec {blake3 : Bytes → String} {expected : String} :
    Triple (StateIs x) (checkIfExists blake3 name expected)
      (fun valid d => StateIs x d ∧
        (valid = true → ∃ content, d.lookup name = some content ∧ blake3 content = expected))
      (StateIs x) := by
  refine (triple_fileExists (fun _ hd => hd)).bind (fun found => triple_ite (fun _ => ?_) ?_)
  · exact triple_verifyFileHash (fun _ hd => hd)
  · exact fun _ => triple_pure (fun d hd => ⟨hd, fun hvalid => by cases hvalid⟩)

theorem removePart_spec :
    Triple (StateIs x) (removePart name) (fun _ => StateIs x) (StateIs x) := by
  refine (triple_poll (fun _ hd => hd)).bind (fun _ => triple_ite (fun hpart => ?_) ?_)
  · have hname : name ≠ .state := by
      rintro rfl
      cases hpart
    exact (tolerate_removeFile_spec hname).bind (fun _ => triple_pure (fun _ hd => hd))
  · exact fun _ => triple_pure (fun _ hd => hd)

theorem removeParts_spec : Triple (StateIs x) removeParts (fun _ => StateIs x) (StateIs x) := by
  refine ((triple_observe (fun _ hd => hd)).post (fun _ _ hq => hq.1)).bind ?_
  exact (fun names => triple_forM (fun _ _ => removePart_spec) [])

/-- A finished download has moved its temporary file away, so it is not `state.jsonl` that
the temporary file replaced. -/
theorem downloadFile_spec {server : String → Option Response} {url : String} {dest : FileName}
    (hdest : dest ≠ .state) (htmp : dest.withExtensionPart ≠ .state) :
    Triple (StateIs x) (downloadFile server url dest) (fun _ => StateIs x) (StateIs x) := by
  refine ((createFile_spec htmp).post (fun _ _ hd => hd.1)).bind (fun _ => ?_)
  cases server url with
  | none => exact triple_fail (fun _ hd => hd)
  | some response =>
    have hchunks : Triple (StateIs x) (response.chunks.forM (writeAll dest.withExtensionPart))
        (fun _ => StateIs x) (StateIs x) := triple_forM (fun _ _ => writeAll_spec htmp) []
    refine hchunks.bind (fun _ => triple_ite (fun _ => ?_) (fun _ => triple_fail (fun _ hd => hd)))
    refine (triple_poll (fun _ hd => hd)).bind (fun _ => triple_change (fun _ hd => hd) ?_)
    intro d d' hd hmoved
    cases hcontent : d.lookup dest.withExtensionPart with
    | none =>
      simp only [hcontent] at hmoved
      cases hmoved
    | some content =>
      simp only [hcontent] at hmoved
      cases hmoved
      exact (hd.erase htmp).insert hdest

end OtherFiles

section Attempts
variable {blake3 : Bytes → String} {unzstd : Bytes → Decoded} {host : StateHost}
  {server : String → Option Response} {x : Option Bytes}

theorem downloadCompressed_spec :
    Triple (StateIs x) (downloadCompressed blake3 host server)
      (fun _ d => StateIs x d ∧ ∃ archive, d.lookup .compressed = some archive ∧
        blake3 archive = host.compressedStateHash)
      (StateIs x) := by
  have hfetch : Triple (StateIs x) (downloadFile server host.stateUrl .compressed)
      (fun _ => StateIs x) (StateIs x) := downloadFile_spec (by decide) (by decide)
  refine (removeIfExists_spec (by decide)).bind (fun _ => hfetch.mapError.bind (fun _ => ?_))
  refine (triple_verifyFileHash (fun _ hd => hd)).bind (fun valid => triple_ite ?_ (fun _ => ?_))
  · exact fun hvalid => triple_pure (fun d hd => ⟨hd.1, hd.2 hvalid⟩)
  · refine ((tolerate_removeFile_spec (by decide)).pre (fun d hd => hd.1)).bind (fun _ => ?_)
    exact triple_fail (fun _ hd => hd)

def Buffered (name : FileName) (written buf : Bytes) (d : Dir) : Prop :=
  ∃ content, d.lookup name = some content ∧ content ++ buf = written

theorem flushBuf_stateIs {name : FileName} {b : Bytes} (hname : name ≠ .state) :
    Triple (StateIs x) (flushBuf name b) (fun _ => StateIs x) (StateIs x) := by
  unfold flushBuf
  split
  · exact triple_pure (fun _ hd => hd)
  · refine (triple_writeSome (fun d k hd => hd.appended hname)).bind (fun rest => ?_)
    apply triple_pure
    rintro d' ⟨d, part, hd, -, rfl⟩
    exact hd.appended hname

theorem flushBuf_spec {name : FileName} {written buf : Bytes} (hname : name ≠ .state) :
    Triple (fun d => StateIs x d ∧ Buffered name written buf d) (flushBuf name buf)
      (fun left d => StateIs x d ∧ Buffered name written left.1 d ∧
        (left.2 = true → left.1 = []))
      (StateIs x) := by
  unfold flushBuf
  split
  · next hempty =>
    subst hempty
    exact triple_pure (fun d hd => ⟨hd.1, hd.2, fun _ => rfl⟩)
  · refine (triple_writeSome (fun d k hd => hd.1.appended hname)).bind (fun rest => ?_)
    apply triple_pure
    rintro d' ⟨d, part, ⟨hstate, content, hcontent, rfl⟩, rfl, rfl⟩
    refine ⟨hstate.appended hname, ⟨content ++ part, lookup_appended hcontent, ?_⟩, ?_⟩
    · exact List.append_assoc content part (rest.getD [])
    · intro hnone
      cases rest with
      | none => rfl
      | some left => cases hnone

theorem writeFlushed_spec {name : FileName} {written bytes : Bytes} {flushed : Bytes × Bool}
    (hname : name ≠ .state)
    (hroom : flushed.2 = true → BUF_CAPACITY ≤ bytes.length → flushed.1 = []) :
    Triple (fun d => StateIs x d ∧ Buffered name written flushed.1 d)
      (writeFlushed name bytes flushed)
      (fun left d => StateIs x d ∧
        (left.2 = true → Buffered name (written ++ bytes) left.1 d))
      (StateIs x) := by
  unfold writeFlushed
  split
  · next hfailed =>
    apply triple_pure
    rintro d ⟨hstate, -⟩
    refine ⟨hstate, fun hok => ?_⟩
    rw [hfailed] at hok
    cases hok
  · next hflushed =>
    rw [Bool.not_eq_false] at hflushed
    split
    · next hlarge =>
      rw [hroom hflushed hlarge]
      refine (triple_writeSome (fun d k hd => hd.1.appended hname)).bind (fun rest => ?_)
      apply triple_pure
      rintro d' ⟨d, part, ⟨hstate, content, hcontent, rfl⟩, hpart, rfl⟩
      refine ⟨hstate.appended hname, fun hnone => ⟨content ++ part, lookup_appended hcontent, ?_⟩⟩
      cases rest with
      | none => simpa using hpart
      | some left => cases hnone
    · apply triple_pure
      rintro d ⟨hstate, content, hcontent, rfl⟩
      exact ⟨hstate, fun _ => ⟨content, hcontent, (List.append_assoc _ _ _).symm⟩⟩

theorem bufWriteAll_spec {name : FileName} {written buf bytes : Bytes} (hname : name ≠ .state) :
    Triple (fun d => StateIs x d ∧ Buffered name written buf d) (bufWriteAll name buf bytes)
      (fun left d => StateIs x d ∧
        (left.2 = true → Buffered name (written ++ bytes) left.1 d))
      (StateIs x) := by
  unfold bufWriteAll
  split
  · apply triple_pure
    rintro d ⟨hstate, content, hcontent, rfl⟩
    exact ⟨hstate, fun _ => ⟨content, hcontent, (List.append_assoc _ _ _).symm⟩⟩
  · next hfull =>
    split
    · refine (flushBuf_spec hname).bind (fun flushed => ?_)
      rw [show (fun d => StateIs x d ∧ Buffered name written flushed.1 d ∧
        (flushed.2 = true → flushed.1 = [])) = fun d => (flushed.2 = true → flushed.1 = []) ∧
          StateIs x d ∧ Buffered name written flushed.1 d by
        funext d
        exact propext ⟨fun h => ⟨h.2.2, h.1, h.2.1⟩, fun h => ⟨h.2.1, h.2.2, h.1⟩⟩]
      exact Triple.given (fun hroom => writeFlushed_spec hname (fun hok _ => hroom hok))
    · next hfits =>
      have hroom : (buf, true).2 = true → BUF_CAPACITY ≤ bytes.length → (buf, true).1 = [] := by
        intro _ hlarge
        have hsize : buf.length = 0 := by
          unfold BUF_CAPACITY at *
          omega
        exact List.length_eq_zero_iff.mp hsize
      exact writeFlushed_spec hname hroom

theorem decompressLoop_spec {name : FileName} {complete : Bool} (hname : name ≠ .state)
    (reads : List Bytes) (written buf : Bytes) :
    Triple (fun d => StateIs x d ∧ Buffered name written buf d)
      (decompressLoop name complete reads buf)
      (fun left d => StateIs x d ∧
        (left.2 = true → complete = true ∧ Buffered name (written ++ reads.flatten) left.1 d))
      (StateIs x) := by
  induction reads generalizing written buf with
  | nil =>
    apply triple_pure
    rintro d ⟨hstate, hbuffered⟩
    exact ⟨hstate, fun hcomplete => ⟨hcomplete, by simpa using hbuffered⟩⟩
  | cons bytes rest ih =>
    have hread : Triple (fun d => StateIs x d ∧ Buffered name written buf d)
        (tolerate (poll SetupError.io))
        (fun _ d => StateIs x d ∧ Buffered name written buf d) (StateIs x) := by
      refine (triple_poll (fun _ hd => hd)).tolerate.mono (fun _ hd => hd) ?_ (fun _ hd => hd.1)
      rintro r d (⟨u, -, hd⟩ | ⟨-, hd⟩) <;> exact hd
    refine hread.bind (fun readable => triple_ite (fun _ => ?_) (fun _ => ?_))
    · exact triple_pure (fun d hd => ⟨hd.1, fun hok => by cases hok⟩)
    · refine (bufWriteAll_spec hname).bind
        (fun left => triple_ite (fun hok => ?_) (fun hfailed => ?_))
      · rw [List.flatten_cons, ← List.append_assoc]
        exact (ih (written ++ bytes) left.1).pre (fun d hd => ⟨hd.1, hd.2 hok⟩)
      · apply triple_pure
        rintro d ⟨hstate, -⟩
        refine ⟨hstate, fun hok => ?_⟩
        rw [hfailed] at hok
        cases hok

/-- `decompress_zstd` returns only at the end of the stream, but the last bytes may be
missing from the file. -/
theorem decompressZstd_spec {input output : FileName} {archive : Bytes}
    (houtput : output ≠ .state) :
    Triple (fun d => StateIs x d ∧ d.lookup input = some archive)
      (decompressZstd unzstd input output)
      (fun _ d => StateIs x d ∧ (unzstd archive).complete = true ∧
        ∃ content, d.lookup output = some content ∧ content <+: (unzstd archive).content)
      (StateIs x) := by
  refine (triple_readFile (fun _ hd => hd.1)).bind (fun compressed => ?_)
  have hcreate : Triple (fun d => (StateIs x d ∧ d.lookup input = some archive) ∧
      d.lookup input = some compressed) (createFile output)
      (fun _ d => archive = compressed ∧ StateIs x d ∧ Buffered output [] [] d) (StateIs x) := by
    apply triple_change (fun _ hd => hd.1.1)
    rintro d d' ⟨⟨hstate, harchive⟩, hcompressed⟩ hcreated
    cases hcreated
    refine ⟨?_, hstate.insert houtput, [], AList.lookup_insert d, rfl⟩
    exact Option.some.inj (harchive.symm.trans hcompressed)
  refine hcreate.bind (fun _ => Triple.given ?_)
  rintro rfl
  refine (decompressLoop_spec houtput (unzstd archive).reads [] []).bind (fun left => ?_)
  cases hleft : left.2 with
  | false =>
    refine ((flushBuf_stateIs houtput).pre (fun d hd => hd.1)).bind (fun _ => ?_)
    exact triple_fail (fun _ hd => hd)
  | true =>
    rw [show (fun d => StateIs x d ∧ (true = true → (unzstd archive).complete = true ∧
      Buffered output ([] ++ (unzstd archive).reads.flatten) left.1 d)) =
        fun d => (unzstd archive).complete = true ∧ StateIs x d ∧
          Buffered output (unzstd archive).content left.1 d by
      funext d
      exact propext ⟨fun h => ⟨(h.2 rfl).1, h.1, (h.2 rfl).2⟩,
        fun h => ⟨h.2.1, fun _ => ⟨h.1, h.2.2⟩⟩⟩]
    refine Triple.given (fun hcomplete => (flushBuf_spec houtput).bind (fun rest => ?_))
    apply triple_pure
    rintro d ⟨hstate, ⟨content, hcontent, hwritten⟩, -⟩
    exact ⟨hstate, hcomplete, content, hcontent, rest.1, hwritten⟩

variable (blake3 unzstd host) in
/-- Decompressed from an archive with the expected hash, perhaps without the last bytes. -/
def Unpacked (bytes : Bytes) : Prop :=
  ∃ archive, blake3 archive = host.compressedStateHash ∧ (unzstd archive).complete = true ∧
    bytes <+: (unzstd archive).content

variable (blake3 unzstd host) in
/-- Wherever an attempt ends, `state.jsonl` is as before it or unpacked by it. -/
def StateFrom (x : Option Bytes) (d : Dir) : Prop :=
  StateIs x d ∨ ∃ bytes, Unpacked blake3 unzstd host bytes ∧ StateIs (some bytes) d

theorem unpackState_spec {archive : Bytes} (harchive : blake3 archive = host.compressedStateHash) :
    Triple (fun d => StateIs x d ∧ d.lookup .compressed = some archive) (unpackState unzstd host)
      (fun _ d => ∃ bytes, (Unpacked blake3 unzstd host bytes ∧
        bytes.length = host.decompressedStateSize) ∧ StateIs (some bytes) d)
      (StateFrom blake3 unzstd host x) := by
  have hunzip : Triple (fun d => StateIs x d ∧ d.lookup .compressed = some archive)
      (decompressZstd unzstd .compressed .statePart) _ (StateFrom blake3 unzstd host x) :=
    (decompressZstd_spec (by decide)).mono (fun _ hd => hd) (fun _ _ hd => hd) (fun _ hd => .inl hd)
  refine hunzip.bind (fun _ => ?_)
  -- the one operation that replaces `state.jsonl`
  have hrename : Triple (fun d => StateIs x d ∧ (unzstd archive).complete = true ∧
      ∃ content, d.lookup .statePart = some content ∧ content <+: (unzstd archive).content)
      (renameFile .statePart .state)
      (fun _ d => ∃ bytes, Unpacked blake3 unzstd host bytes ∧ StateIs (some bytes) d)
      (StateFrom blake3 unzstd host x) := by
    apply triple_change (fun _ hd => .inl hd.1)
    rintro d d' ⟨-, hcomplete, content, hcontent, hprefix⟩ hmoved
    simp only [hcontent] at hmoved
    cases hmoved
    exact ⟨content, ⟨archive, harchive, hcomplete, hprefix⟩, AList.lookup_insert _⟩
  refine hrename.bind (fun _ => triple_exists (fun bytes => Triple.given (fun hbytes => ?_)))
  have hcrash : ∀ d, StateIs (some bytes) d → StateFrom blake3 unzstd host x d :=
    fun d hd => .inr ⟨bytes, hbytes, hd⟩
  refine (triple_fileHasSize hcrash).bind (fun sized => triple_ite (fun hsized => ?_) (fun _ => ?_))
  · have hremove : Triple (StateIs (some bytes)) (tolerate (removeFile .compressed))
        (fun _ => StateIs (some bytes)) (StateFrom blake3 unzstd host x) :=
      (tolerate_removeFile_spec (by decide)).mono (fun _ hd => hd) (fun _ _ hd => hd) hcrash
    have hend : bytes.length = host.decompressedStateSize →
        Triple (StateIs (some bytes)) (tolerate (removeFile .compressed) >>= fun _ => pure ())
          (fun _ d => ∃ bytes, (Unpacked blake3 unzstd host bytes ∧
            bytes.length = host.decompressedStateSize) ∧ StateIs (some bytes) d)
          (StateFrom blake3 unzstd host x) :=
      fun hlength => hremove.bind
        (fun _ => triple_pure (fun d hd => ⟨bytes, ⟨hbytes, hlength⟩, hd⟩))
    refine (Triple.given hend).pre (fun d hd => ?_)
    obtain ⟨content, hcontent, hlength⟩ := hd.2 hsized
    have hsame : content = bytes := Option.some.inj (hcontent.symm.trans hd.1)
    exact ⟨by rw [← hsame, hlength], hd.1⟩
  · exact triple_fail (fun d hd => hcrash d hd.1)

theorem ensureCompressed_spec :
    Triple (StateIs x) (ensureCompressed blake3 host server)
      (fun _ d => ∃ archive, blake3 archive = host.compressedStateHash ∧
        StateIs x d ∧ d.lookup .compressed = some archive)
      (StateIs x) := by
  refine checkIfExists_spec.bind (fun valid => triple_ite (fun hvalid => ?_) (fun _ => ?_))
  · apply triple_pure
    rintro d ⟨hstate, harchive⟩
    obtain ⟨archive, hlookup, hhash⟩ := harchive hvalid
    exact ⟨archive, hhash, hstate, hlookup⟩
  · refine (downloadCompressed_spec.pre (fun _ hd => hd.1)).post ?_
    rintro _ d ⟨hstate, archive, hlookup, hhash⟩
    exact ⟨archive, hhash, hstate, hlookup⟩

theorem ensureStateFile_spec :
    Triple (StateIs x) (ensureStateFile blake3 unzstd host server)
      (fun _ d => ∃ bytes, ((x = some bytes ∨ Unpacked blake3 unzstd host bytes) ∧
        bytes.length = host.decompressedStateSize) ∧ StateIs (some bytes) d)
      (StateFrom blake3 unzstd host x) := by
  refine (triple_fileHasSize (fun _ hd => .inl hd)).bind (fun complete => triple_ite ?_ ?_)
  · intro hcomplete
    apply triple_pure
    rintro d ⟨hstate, hsized⟩
    obtain ⟨content, hcontent, hlength⟩ := hsized hcomplete
    exact ⟨content, ⟨.inl (hstate.symm.trans hcontent), hlength⟩, hcontent⟩
  · intro _
    have hcompressed : Triple (StateIs x) (ensureCompressed blake3 host server)
        _ (StateFrom blake3 unzstd host x) :=
      ensureCompressed_spec.mono (fun _ hd => hd) (fun _ _ hd => hd) (fun _ hd => .inl hd)
    refine (hcompressed.pre (fun d hd => hd.1)).bind (fun _ => ?_)
    refine triple_exists (fun archive => Triple.given (fun hhash => ?_))
    refine (unpackState_spec hhash).post ?_
    rintro _ d ⟨bytes, ⟨hbytes, hlength⟩, hstate⟩
    exact ⟨bytes, ⟨.inr hbytes, hlength⟩, hstate⟩

theorem downloadHeader_spec :
    Triple (StateIs x) (downloadHeader blake3 host server)
      (fun _ d => StateIs x d ∧ ∃ header, d.lookup .header = some header ∧
        blake3 header = host.headerHash)
      (StateIs x) := by
  refine (removeIfExists_spec (by decide)).bind (fun _ => ?_)
  cases server host.headerUrl with
  | none => exact triple_fail (fun _ hd => hd)
  | some response =>
    refine triple_ite (fun _ => ?_) (fun _ => triple_fail (fun _ hd => hd))
    refine ((createFile_spec (by decide)).post (fun _ _ hd => hd.1)).bind (fun _ => ?_)
    refine (writeAll_spec (by decide)).bind (fun _ => ?_)
    refine (triple_verifyFileHash (fun _ hd => hd)).bind (fun valid => triple_ite ?_ (fun _ => ?_))
    · exact fun hvalid => triple_pure (fun d hd => ⟨hd.1, hd.2 hvalid⟩)
    · refine ((tolerate_removeFile_spec (by decide)).pre (fun d hd => hd.1)).bind (fun _ => ?_)
      exact triple_fail (fun _ hd => hd)

theorem ensureHeader_spec :
    Triple (StateIs x) (ensureHeader blake3 host server)
      (fun _ d => StateIs x d ∧ ∃ header, d.lookup .header = some header ∧
        blake3 header = host.headerHash)
      (StateIs x) := by
  refine checkIfExists_spec.bind (fun valid => triple_ite (fun hvalid => ?_) (fun _ => ?_))
  · exact triple_pure (fun d hd => ⟨hd.1, hd.2 hvalid⟩)
  · exact downloadHeader_spec.pre (fun d hd => hd.1)

variable (blake3 unzstd host) in
/-- What `import_state` may read: both files are the expected ones. -/
structure FilesReady (d : Dir) (state header : Bytes) : Prop where
  stateFile : d.lookup .state = some state
  sized : state.length = host.decompressedStateSize
  unpacked : Unpacked blake3 unzstd host state
  headerFile : d.lookup .header = some header
  verified : blake3 header = host.headerHash

variable (blake3 unzstd host) in
def NoForeignState (d : Dir) : Prop :=
  ∀ bytes, d.lookup .state = some bytes → Unpacked blake3 unzstd host bytes

theorem StateFrom.noForeignState {d : Dir}
    (hx : ∀ bytes, x = some bytes → Unpacked blake3 unzstd host bytes)
    (h : StateFrom blake3 unzstd host x d) : NoForeignState blake3 unzstd host d := by
  intro bytes hlookup
  rcases h with hstate | ⟨found, hfound, hstate⟩
  · exact hx bytes (hstate.symm.trans hlookup)
  · have hsame : found = bytes := Option.some.inj (hstate.symm.trans hlookup)
    rwa [← hsame]

theorem ensureState_spec :
    Triple (NoForeignState blake3 unzstd host) (ensureState blake3 unzstd host server)
      (fun _ d => ∃ state header, FilesReady blake3 unzstd host d state header)
      (NoForeignState blake3 unzstd host) := by
  have hlookup : ∀ x, (∀ bytes, x = some bytes → Unpacked blake3 unzstd host bytes) →
      Triple (StateIs x) (ensureState blake3 unzstd host server)
        (fun _ d => ∃ state header, FilesReady blake3 unzstd host d state header)
        (NoForeignState blake3 unzstd host) := by
    intro x hx
    have hcrash : ∀ d, StateIs x d → NoForeignState blake3 unzstd host d :=
      fun d hd => StateFrom.noForeignState hx (.inl hd)
    refine (triple_poll hcrash).bind (fun _ => ?_)
    refine (removeParts_spec.mono (fun _ hd => hd) (fun _ _ hd => hd) hcrash).bind (fun _ => ?_)
    refine (ensureStateFile_spec.mono (fun _ hd => hd) (fun _ _ hd => hd)
      (fun d hd => hd.noForeignState hx)).bind (fun _ => ?_)
    refine triple_exists (fun bytes => Triple.given ?_)
    rintro ⟨horigin, hlength⟩
    have hbytes : Unpacked blake3 unzstd host bytes := by
      rcases horigin with hbefore | hnew
      · exact hx bytes hbefore
      · exact hnew
    refine ensureHeader_spec.mono (fun _ hd => hd) ?_ ?_
    · rintro _ d ⟨hstate, header, hheader, hhash⟩
      exact ⟨bytes, header, hstate, hlength, hbytes, hheader, hhash⟩
    · intro d hd found hfound
      have hsame : bytes = found := Option.some.inj (hd.symm.trans hfound)
      rwa [← hsame]
  intro w hw
  have hstate : StateIs (w.store.lookup .state) w.store := rfl
  exact hlookup _ hw w hstate

/-- One launch's call of `ensure_state`: what the server answers, and where the process is
cut off. -/
structure Attempt where
  server : String → Option Response
  script : ℕ → Event

variable (blake3 unzstd host) in
def runAttempt (a : Attempt) (d : Dir) : EStateM.Result (Halt SetupError) (Scene Dir) Unit :=
  ensureState blake3 unzstd host a.server ⟨d, a.script⟩

variable (blake3 unzstd host) in
def afterAttempt (a : Attempt) (d : Dir) : Dir :=
  (Fallible.final (runAttempt blake3 unzstd host a d)).store

theorem afterAttempts_noForeignState (attempts : List Attempt) {d : Dir}
    (h : NoForeignState blake3 unzstd host d) :
    NoForeignState blake3 unzstd host (Run.run (afterAttempt blake3 unzstd host) attempts d) := by
  refine (Run.invariant ?_ h).1
  intro a d hd
  refine ensureState_spec.final ?_ hd
  rintro _ d' ⟨state, header, hready⟩ bytes hbytes
  have hsame : state = bytes := Option.some.inj (hready.stateFile.symm.trans hbytes)
  rw [← hsame]
  exact hready.unpacked

/-- Whatever the servers answered and wherever the earlier attempts were cut off, an attempt
that returns leaves the verified header and a `state.jsonl` of the expected size that was
decompressed from an archive with the expected hash. -/
theorem ensureState_returns_ready (blake3 : Bytes → String) (unzstd : Bytes → Decoded)
    (host : StateHost) (earlier : List Attempt) (last : Attempt) (d : Dir)
    (hfresh : d.lookup .state = none) {w : Scene Dir}
    (hreturns : runAttempt blake3 unzstd host last
      (Run.run (afterAttempt blake3 unzstd host) earlier d) = .ok () w) :
    ∃ state header, FilesReady blake3 unzstd host w.store state header := by
  have hnone : NoForeignState blake3 unzstd host d := by
    intro bytes hbytes
    rw [hfresh] at hbytes
    cases hbytes
  exact ensureState_spec.run_ok (afterAttempts_noForeignState earlier hnone) hreturns

end Attempts

section Sample

def sampleArchive : Bytes :=
  [0x28, 0xb5, 0x2f, 0xfd, 0x20, 0x03, 0x19, 0x00, 0x00, 0x41, 0x42, 0x43]

def sampleWord : Bytes := 0xa0 :: List.replicate 32 0x00

def sampleHeader : Bytes :=
  [0xf9, 0x01, 0xee] ++ sampleWord ++ sampleWord ++ (0x94 :: List.replicate 20 0x00) ++
    sampleWord ++ sampleWord ++ sampleWord ++ ([0xb9, 0x01, 0x00] ++ List.replicate 256 0x00) ++
    [0x80, 0x01, 0x80, 0x80, 0x80, 0x80] ++ sampleWord ++ (0x88 :: List.replicate 8 0x00) ++ [0x07]

def sampleHost : StateHost where
  stateUrl := "state"
  headerUrl := "header"
  decompressedStateSize := 3
  compressedStateHash := "5c970d58bdaf7bf07b8a1bd3adf41ad3e433bad132256d72b5b1a0576175bff2"
  headerHash := "63ba15b027a1e8cfd8d24764255ff926c22436dd3a3cd68120ac883bca200062"

def sampleBlake3 (bytes : Bytes) : String :=
  if bytes = sampleArchive then sampleHost.compressedStateHash
  else if bytes = sampleHeader then sampleHost.headerHash
  else ""

def sampleUnzstd (bytes : Bytes) : Decoded :=
  if bytes = sampleArchive then ⟨[[0x41, 0x42, 0x43]], true⟩ else ⟨[], false⟩

def sampleServer (url : String) : Option Response :=
  if url = "state" then some ⟨[sampleArchive], true⟩
  else if url = "header" then some ⟨[sampleHeader], true⟩
  else none

def cutAttempt : Attempt := ⟨sampleServer, fun n => if n = 6 then .stops 4 else .done⟩

theorem ensureState_returns_ready_sample :
    ∃ w, runAttempt sampleBlake3 sampleUnzstd sampleHost ⟨sampleServer, calm⟩
        (Run.run (afterAttempt sampleBlake3 sampleUnzstd sampleHost) [cutAttempt] ∅) = .ok () w ∧
      ∃ state header, FilesReady sampleBlake3 sampleUnzstd sampleHost w.store state header := by
  have hreturns : Fallible.failed (runAttempt sampleBlake3 sampleUnzstd sampleHost
      ⟨sampleServer, calm⟩
      (Run.run (afterAttempt sampleBlake3 sampleUnzstd sampleHost) [cutAttempt] ∅)) = false := by
    decide +kernel
  have hfresh : (∅ : Dir).lookup .state = none := AList.lookup_empty FileName.state
  obtain ⟨u, w, hw, -⟩ := Fallible.exists_ok hreturns
  exact ⟨w, hw, ensureState_returns_ready sampleBlake3 sampleUnzstd sampleHost [cutAttempt]
    ⟨sampleServer, calm⟩ ∅ hfresh hw⟩

end Sample

end RethGnosis
