import Atmos.WriteChecksums

/-!
# Writes given up before sending

In the mode `ATMOS_WSCHECKSUM` a write filter may find that it cannot go on:
the position of the file cannot be asked for, the file cannot be set back, or
there is no digest to state.  It then leaves an error in the response and does
not call the next filter.  The first of these points lies before the checksum
is fed, the other two lie behind it.

* `setWriteHeaders_eq_stop` — what a write that is given up leaves behind;
* `keepsChecksum_of_stop` — the checksum is as before exactly where nothing
  was fed to it.
-/

namespace Atmos

open ByteText FixedMemory FilterChain

namespace BodySource

/-- The size of a body is a `size_t` in memory and an `int64_t` for a file. -/
def Sized : BodySource → Prop
  | .array data => data.length < 18446744073709551616
  | .file _ dataSize => dataSize < 9223372036854775808

/-- There is nothing that would be fed to a checksum: no bytes in memory, or a
file that does not know its position or whose first read delivers nothing. -/
def FeedsNothing : BodySource → Prop
  | .array data => data = []
  | .file f dataSize =>
      f.tells = false ∨ (f.fread (AtmosChecksum.readSize dataSize 0)).1 = []

/-- What is fed to a checksum before sending. -/
def fedBytes : BodySource → List UInt8
  | .array data => data
  | .file f dataSize => if f.tells then (AtmosChecksum.filePieces f dataSize).flatten else []

theorem fedBytes_eq_nil {source : BodySource} : source.fedBytes = [] ↔ source.FeedsNothing := by
  cases source with
  | array data => exact Iff.rfl
  | file f dataSize =>
      rw [fedBytes, FeedsNothing, AtmosChecksum.filePieces]
      by_cases htells : f.tells = true
      · rw [if_pos htells, FileStream.flatten_readPieces_eq_nil, htells]
        simp
      · rw [if_neg htells]
        simp [htells]

theorem length_fedBytes {source : BodySource} (h : source.Sized) :
    source.fedBytes.length < 18446744073709551616 := by
  cases source with
  | array data => exact h
  | file f dataSize =>
      have hcount : dataSize < 9223372036854775808 := h
      have hbuffer : AtmosChecksum.fileBufferSize = 65536 := rfl
      have hpieces : (AtmosChecksum.filePieces f dataSize).flatten.length ≤ _ :=
        FileStream.length_flatten_readPieces_le
          (fun read hread => AtmosChecksum.readSize_le hcount hread) dataSize f (le_refl 0)
      rw [fedBytes]
      split
      · omega
      · exact Nat.zero_lt_succ _

end BodySource

/-! ## The checksum of an exchange -/

namespace Exchange

theorem checksum_setChecksum {x : Exchange} {checksum : AtmosChecksum}
    (h : x.checksum = some checksum) (checksum' : AtmosChecksum) :
    (x.setChecksum checksum').checksum = some checksum' := by
  obtain ⟨req, hreq, -⟩ := Option.bind_eq_some_iff.mp h
  have hfields := RequestFields.asWrite_setChecksum hreq checksum'
  exact congrArg (Option.bind · (·.checksum)) hfields

@[simp] theorem checksum_setBody (x : Exchange) (body : RequestBody) :
    (x.setBody body).checksum = x.checksum := rfl

@[simp] theorem checksum_addHeaders (x : Exchange) (lines : List CStr) :
    (x.addHeaders lines).checksum = x.checksum := rfl

@[simp] theorem checksum_reject (x : Exchange) (code : Int) (message : CStr) :
    (x.reject code message).checksum = x.checksum := rfl

/-- One exchange goes on to another that was fed `data` and sent nothing. -/
structure Feeds (openssl : Openssl) (checksum : AtmosChecksum) (data : List UInt8)
    (x x' : Exchange) : Prop where
  trace : x'.trace = x.trace
  checksum : x'.checksum = some (checksum.update openssl data)

theorem Feeds.reject {openssl : Openssl} {checksum : AtmosChecksum} {data : List UInt8}
    {x x' : Exchange} (h : Feeds openssl checksum data x x') (code : Int) (message : CStr) :
    Feeds openssl checksum data x (x'.reject code message) :=
  ⟨h.trace, h.checksum⟩

end Exchange

/-! ## Giving up -/

namespace AtmosFilter

open Exchange

/-- Feeding a body, whether it goes through or is given up in between. -/
theorem feeds_of_checksumBody {openssl : Openssl} (hstreams : openssl.Streams)
    {checksum : AtmosChecksum} {body : RequestBody} {x : Exchange}
    (hchecksum : x.checksum = some checksum) :
    (∀ y, checksumBody openssl checksum body x = .stop y →
      Feeds openssl checksum body.source.fedBytes x y) ∧
    ∀ y fed, checksumBody openssl checksum body x = .next (y, fed) →
      Feeds openssl checksum body.source.fedBytes x y := by
  unfold checksumBody BodySource.fedBytes
  cases body.source with
  | array data =>
      constructor
      · intro y hstop
        cases hstop
      · intro y fed hnext
        cases hnext
        exact ⟨rfl, checksum_setChecksum hchecksum _⟩
  | file f dataSize =>
      dsimp only
      cases htells : f.tells with
      | false =>
          have hnowhere : f.ftello = none := by simp [FileStream.ftello, htells]
          rw [hnowhere]
          dsimp only
          constructor
          · intro y hstop
            cases hstop
            -- the position is asked for before anything is fed
            refine ⟨rfl, ?_⟩
            rw [if_neg Bool.false_ne_true, AtmosChecksum.update_nil hstreams]
            exact hchecksum
          · intro y fed hnext
            cases hnext
      | true =>
          have hhere : f.ftello = some f.position := if_pos htells
          rw [hhere, if_pos rfl, AtmosChecksum.updateFile_eq hstreams]
          dsimp only
          have hfed := checksum_setChecksum hchecksum
            (checksum.update openssl (AtmosChecksum.filePieces f dataSize).flatten)
          cases (f.readPieces (AtmosChecksum.readSize dataSize) dataSize 0).2.fseeko
              f.position with
          | none =>
              constructor
              · intro y hstop
                cases hstop
                exact ⟨rfl, hfed⟩
              · intro y fed hnext
                cases hnext
          | some f' =>
              constructor
              · intro y hstop
                cases hstop
              · intro y fed hnext
                cases hnext
                exact ⟨rfl, hfed⟩

/-- A checksum that is made before sending, and is given up. -/
theorem wschecksum_eq_stop {env : Env} (hstreams : env.openssl.Streams)
    {checksum : AtmosChecksum} {x y : Exchange} (hchecksum : x.checksum = some checksum)
    (h : wschecksum env checksum x = some (.stop y)) :
    ∃ body, x.request.parent.requestBody = some body ∧
      Feeds env.openssl checksum body.source.fedBytes x y := by
  unfold wschecksum at h
  cases hbody : x.request.parent.requestBody with
  | none =>
      rw [hbody] at h
      cases h
  | some body =>
      rw [hbody] at h
      dsimp only at h
      obtain ⟨hstopped, hpassed⟩ := @feeds_of_checksumBody env.openssl hstreams checksum body x
        hchecksum
      refine ⟨body, rfl, ?_⟩
      cases hstep : checksumBody env.openssl checksum body x with
      | stop z =>
          rw [hstep] at h
          cases h
          exact hstopped y hstep
      | next result =>
          obtain ⟨z, fed⟩ := result
          rw [hstep] at h
          obtain ⟨state, -, h⟩ := Option.bind_eq_some_iff.mp h
          cases state with
          | some state => cases h
          | none =>
              cases h
              exact (hpassed z fed hstep).reject _ _

/-- A checksum that is made while sending is never given up. -/
theorem generateChecksum_ne_stop {env : Env} {checksum : AtmosChecksum} {x y : Exchange} :
    generateChecksum env checksum x ≠ some (.stop y) := by
  intro h
  unfold generateChecksum at h
  obtain ⟨algorithm, -, h⟩ := Option.bind_eq_some_iff.mp h
  dsimp only at h
  split at h
  · cases h
  · split at h <;> cases h

theorem setChecksumHeader_eq_stop {env : Env} {checksum : Option AtmosChecksum}
    {x y : Exchange} (h : setChecksumHeader env checksum x = some (.stop y)) :
    ∃ checksum', checksum = some checksum' ∧
      wschecksum env checksum' x = some (.stop y) := by
  unfold setChecksumHeader at h
  cases checksum with
  | none => cases h
  | some checksum =>
      dsimp only at h
      split at h
      · split at h
        · exact ⟨checksum, rfl, h⟩
        · cases h
      · split at h
        · exact absurd h generateChecksum_ne_stop
        · cases h

/-- **A write that is given up** had a checksum and a body; it was fed what the
body delivers up to there, and nothing was sent. -/
theorem setWriteHeaders_eq_stop {env : Env} (hstreams : env.openssl.Streams)
    {x y : Exchange} (h : setWriteHeaders env x = some (.stop y)) :
    ∃ checksum body, x.checksum = some checksum ∧
      x.request.parent.requestBody = some body ∧
      Feeds env.openssl checksum body.source.fedBytes x y := by
  unfold setWriteHeaders at h
  obtain ⟨req, hreq, h⟩ := Option.bind_eq_some_iff.mp h
  dsimp only at h
  obtain ⟨z, hz, h⟩ := Option.bind_eq_some_iff.mp h
  have hlines := addObjectHeaders_eq_some hz
  rw [Exchange.addHeader?_eq, Exchange.addHeaders_addHeaders] at hlines
  obtain ⟨checksum, hchecksum, hstop⟩ := setChecksumHeader_eq_stop h
  have hbefore : x.checksum = some checksum := by
    unfold Exchange.checksum
    rw [hreq]
    exact hchecksum
  rw [hlines] at hstop
  -- the header lines before the checksum change neither it nor the body
  obtain ⟨body, hbody, hfed⟩ := @wschecksum_eq_stop env hstreams checksum (x.addHeaders _) y
    hbefore hstop
  exact ⟨checksum, body, hbefore, hbody, hfed.trace, hfed.checksum⟩

end AtmosFilter

/-! ## What is left of the checksum -/

/-- The checksum of the request has no digest context, or nothing is fed to
it. -/
def Exchange.KeepsChecksum (x : Exchange) : Prop :=
  ∀ (checksum : AtmosChecksum) (body : RequestBody), x.checksum = some checksum →
    x.request.parent.requestBody = some body →
    checksum.internalState = none ∨ body.source.FeedsNothing

/-- The size of the body fits its type. -/
def Exchange.Sized (x : Exchange) : Prop :=
  ∀ body : RequestBody, x.request.parent.requestBody = some body → body.source.Sized

/-- **A write given up before sending.**  No filter behind runs and nothing is
sent; and the checksum is as it was exactly if it has no digest context or
nothing was fed to it. -/
theorem keepsChecksum_of_stop {env : Env} (hstreams : env.openssl.Streams) {x y : Exchange}
    (hsized : x.Sized) (h : AtmosFilter.setWriteHeaders env x = some (.stop y)) :
    ((∀ chain : List (Filter Exchange Exchange),
        run (AtmosFilter.setWriteHeaders env :: chain) x = some (.stop y)) ∧
      y.trace = x.trace ∧ y.checksum = x.checksum) ↔ x.KeepsChecksum := by
  obtain ⟨checksum, body, hchecksum, hbody, hfed⟩ := AtmosFilter.setWriteHeaders_eq_stop hstreams h
  have hsame : y.checksum = x.checksum ↔
      checksum.internalState = none ∨ body.source.FeedsNothing := by
    rw [hfed.checksum, hchecksum, Option.some_inj,
      AtmosChecksum.update_eq_self_iff hstreams (BodySource.length_fedBytes (hsized body hbody)),
      BodySource.fedBytes_eq_nil]
  constructor
  · rintro ⟨-, -, hkept⟩ checksum' body' hchecksum' hbody'
    obtain rfl := Option.some.inj (hchecksum.symm.trans hchecksum')
    obtain rfl := Option.some.inj (hbody.symm.trans hbody')
    exact hsame.mp hkept
  · intro hkeeps
    refine ⟨?_, hfed.trace, hsame.mpr (hkeeps checksum body hchecksum hbody)⟩
    intro chain
    rw [run, h]

/-- The client's second append of `f`: its checksum was fed the part before. -/
def secondAppend (f : FileStream) : Exchange :=
  ((appendRequest (.array [])).setChecksum
    ((AtmosChecksum.init appendEnv.openssl .wschecksum .sha1).update appendEnv.openssl
      (bytes "hello"))).setBody ⟨.file f 6, none, false⟩

/-- A pipe does not know its position: the append is given up before it feeds
anything. -/
theorem keepsChecksum_of_stop_pipe :
    ∃ y, AtmosFilter.setWriteHeaders appendEnv
        (secondAppend { AtmosChecksum.worldFile with tells := false }) = some (.stop y) ∧
      y.trace = [] ∧
      y.checksum = (secondAppend { AtmosChecksum.worldFile with tells := false }).checksum := by
  refine ⟨_, rfl, ?_⟩
  have hsized : (secondAppend { AtmosChecksum.worldFile with tells := false }).Sized := by
    rintro body ⟨⟩
    exact (by decide : (6 : Int) < 9223372036854775808)
  obtain ⟨-, htrace, hkept⟩ := (keepsChecksum_of_stop (Openssl.replayDigests_streams _) hsized
    (show AtmosFilter.setWriteHeaders appendEnv _ = some (.stop _) from rfl)).mpr
      (by rintro checksum body - ⟨⟩; exact Or.inr (Or.inl rfl))
  exact ⟨htrace, hkept⟩

/-- The end of a file that can be read but not be set back. -/
def unseekableFile : FileStream := { AtmosChecksum.worldFile with seeks := false }

/-- A write with a checksum to state gives up on a file that cannot be set
back. -/
theorem setWriteHeaders_of_unseekable {env : Env} {x y : Exchange}
    {req : AtmosWriteObjectRequest} {checksum : AtmosChecksum}
    (hreq : x.request.fields.asWrite = some req) (hchecksum : req.checksum = some checksum)
    (hmode : checksum.mode = .wschecksum)
    (hmissing : env.rest.getHeaderValue x.headers atmosHeaderWschecksum = none)
    (hheaders : AtmosFilter.addObjectHeaders env req.metadata req.listableMeta req.acl x = some y)
    {f : FileStream} (htells : f.tells = true) (hseeks : f.seeks = false) (dataSize : Int)
    (contentType : Option CStr) (fileFilter : Bool) :
    ∃ z, AtmosFilter.setWriteHeaders env
      (x.setBody ⟨.file f dataSize, contentType, fileFilter⟩) = some (.stop z) := by
  have hhere : f.ftello = some f.position := if_pos htells
  have hbehind : (checksum.updateFile env.openssl f dataSize).2.fseeko f.position = none := by
    have hahead := f.ahead_readPieces (AtmosChecksum.readSize dataSize) dataSize 0
    rw [AtmosChecksum.updateFile, AtmosChecksum.updateFileLoop_eq, FileStream.fseeko,
      hahead.seeks, hseeks]
    rfl
  rw [AtmosFilter.setWriteHeaders_eq_bind hreq hchecksum hmode hmissing, hheaders,
    Option.bind_some]
  unfold AtmosFilter.wschecksum
  dsimp only [Exchange.requestBody_setBody]
  unfold AtmosFilter.checksumBody
  dsimp only
  rw [hhere]
  dsimp only
  rw [hbehind]
  exact ⟨_, rfl⟩

/-- An append of that file is given up, and the bytes that were not sent count
in the checksum all the same. -/
theorem unseekable_append :
    ∃ y, AtmosFilter.setWriteHeaders appendEnv (secondAppend unseekableFile) = some (.stop y) ∧
      (secondAppend unseekableFile).checksum.map (·.offset) = some 5 ∧
      y.checksum.map (·.offset) = some 11 := by
  have hopenssl : appendEnv.openssl.Streams := Openssl.replayDigests_streams _
  have hfed : (BodySource.file unseekableFile 6).fedBytes = bytes " world" := by
    have hdelivers : unseekableFile.Delivers := by
      unfold FileStream.Delivers unseekableFile AtmosChecksum.worldFile
      decide
    rw [BodySource.fedBytes, if_pos (show unseekableFile.tells = true from rfl),
      AtmosChecksum.flatten_filePieces hdelivers (by decide) (by decide)]
    decide
  obtain ⟨y, hy⟩ : ∃ y, AtmosFilter.setWriteHeaders appendEnv (secondAppend unseekableFile) =
      some (.stop y) :=
    setWriteHeaders_of_unseekable rfl rfl rfl rfl rfl rfl rfl 6 none false
  obtain ⟨checksum, body, hchecksum, hbody, hfeeds⟩ :=
    AtmosFilter.setWriteHeaders_eq_stop hopenssl hy
  cases hchecksum
  cases hbody
  refine ⟨y, hy, ?_, ?_⟩
  · decide
  · rw [hfeeds.checksum, hfed]
    decide

end Atmos
