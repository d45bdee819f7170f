import Atmos.ChecksumStream
import Atmos.SignatureCoverage

/-!
# Checksums made before sending

In the mode `ATMOS_WSCHECKSUM` a write filter feeds the body to the checksum
and states the result in a header.  A body may be bytes in memory, or bytes of
a file that is read and then set back.

* `setWriteHeaders_of_holds` — the filter does with a file what it does with its
  bytes in memory;
* `writeTogether_eq_some` — writes that share a checksum state the length and
  the digest of all that was written so far.
-/

namespace Atmos

open ByteText FixedMemory FilterChain

/-- A source that holds `data`: bytes in memory, or as many bytes of a file
from its position on.  The file knows its position, can go back to it, and
every read delivers something. -/
inductive BodySource.Holds (data : List UInt8) : BodySource → Prop where
  | array : Holds data (.array data)
  | file {f : FileStream} (ahead : f.remaining.take data.length = data)
      (delivers : f.Delivers) (tells : f.tells = true) (seeks : f.seeks = true) :
      Holds data (.file f data.length)

/-- The source after it was read and set back: some of the reads of a file are
over. -/
def BodySource.readOnce : BodySource → BodySource
  | .array data => .array data
  | .file f dataSize =>
      let behind := (f.readPieces (AtmosChecksum.readSize dataSize) dataSize 0).2
      .file { f with limits := behind.limits } dataSize

/-! ## Requests that differ in the body -/

theorem getHeaderValue_eq_none {rest : RestClient} {headers : List CStr} {name : CStr} :
    rest.getHeaderValue headers name = none ↔ linesNamed name headers = [] := by
  unfold RestClient.getHeaderValue RestClient.getHeader linesNamed
  rw [Option.map_eq_none_iff, List.find?_eq_none, List.filter_eq_nil_iff]

namespace Exchange

@[simp] theorem fields_setBody (x : Exchange) (body : RequestBody) :
    (x.setBody body).request.fields = x.request.fields := rfl

@[simp] theorem requestBody_setBody (x : Exchange) (body : RequestBody) :
    (x.setBody body).request.parent.requestBody = some body := rfl

theorem setBody_of_requestBody {x : Exchange} {body : RequestBody}
    (h : x.request.parent.requestBody = some body) : x.setBody body = x := by
  obtain ⟨⟨⟨uri, method, headers, requestBody⟩, fields⟩, response, trace⟩ := x
  cases h
  rfl

end Exchange

namespace AtmosFilter

theorem addMetadata_isSome (env : Env) (entries : List AtmosMetadata) (listable : Bool)
    (x x' : Exchange) :
    (addMetadata env entries listable x').isSome = (addMetadata env entries listable x).isSome := by
  unfold addMetadata AtmosUtil.setMetadataHeader
  split
  · dsimp only
    cases AtmosUtil.metadataLoop env.curl env.atmos.enableUtf8Metadata 0 entries
      (AtmosUtil.metadataHeaderName listable ++ bytes ": ") <;> split <;> rfl
  · rfl

theorem addAcl_isSome (acl : List AtmosAclEntry) (x x' : Exchange) :
    (addAcl acl x').isSome = (addAcl acl x).isSome := by
  unfold addAcl AtmosUtil.setAclHeader
  split
  · cases acl.foldlM AtmosUtil.aclStep (none, none) <;> split <;> rfl
  · rfl

/-- Whether a first and a second step succeed, for steps that succeed or not
whatever they work on. -/
private theorem isSome_bind_congr {α β : Type} {a a' : Option α} {g : α → Option β}
    (ha : a'.isSome = a.isSome) (hg : ∀ y y', (g y').isSome = (g y).isSome) :
    (a'.bind g).isSome = (a.bind g).isSome := by
  cases a with
  | none =>
      cases a' with
      | none => rfl
      | some y' => cases ha
  | some y =>
      cases a' with
      | none => cases ha
      | some y' => exact hg y y'

/-- Whether the other headers can be made does not depend on the rest of the
request. -/
theorem addObjectHeaders_isSome (env : Env) (metadata listableMeta : List AtmosMetadata)
    (acl : List AtmosAclEntry) (x x' : Exchange) :
    (addObjectHeaders env metadata listableMeta acl x').isSome =
      (addObjectHeaders env metadata listableMeta acl x).isSome :=
  isSome_bind_congr (addMetadata_isSome env metadata false x x') fun y y' =>
    isSome_bind_congr (addMetadata_isSome env listableMeta true y y') fun _ _ =>
      addAcl_isSome acl _ _

/-- They are the same for every request with these fields. -/
theorem addObjectHeaders_congr (env : Env) (metadata listableMeta : List AtmosMetadata)
    (acl : List AtmosAclEntry) (x x' : Exchange) :
    addObjectHeaders env metadata listableMeta acl x' =
      (addObjectHeaders env metadata listableMeta acl x).map fun _ =>
        x'.addHeaders ((objectHeaders env metadata listableMeta acl).map Header.line) := by
  have hsome := addObjectHeaders_isSome env metadata listableMeta acl x x'
  cases hx : addObjectHeaders env metadata listableMeta acl x with
  | none =>
      rw [hx] at hsome
      exact Option.isSome_eq_false_iff.mp hsome |> Option.isNone_iff_eq_none.mp
  | some y =>
      rw [hx] at hsome
      obtain ⟨y', hy'⟩ := Option.isSome_iff_exists.mp hsome
      rw [hy', addObjectHeaders_eq_some hy']
      rfl

/-! ## One write -/

/-- Feeding a body is feeding the bytes it holds. -/
theorem checksumBody_of_holds {openssl : Openssl} (hstreams : openssl.Streams)
    {source : BodySource} {data : List UInt8} (h : source.Holds data)
    (hlength : data.length < 9223372036854775808) (checksum : AtmosChecksum)
    (contentType : Option CStr) (fileFilter : Bool) (x : Exchange) :
    checksumBody openssl checksum ⟨source, contentType, fileFilter⟩
        (x.setBody ⟨source, contentType, fileFilter⟩) =
      .next ((x.setChecksum (checksum.update openssl data)).setBody
        ⟨source.readOnce, contentType, fileFilter⟩, checksum.update openssl data) := by
  cases h with
  | array => rfl
  | @file f ahead delivers tells seeks =>
      have hdata : (AtmosChecksum.filePieces f data.length).flatten = data := by
        rw [AtmosChecksum.flatten_filePieces delivers (by omega) (by omega)]
        exact ahead
      have htell : f.ftello = some f.position := if_pos tells
      have hback := (FileStream.ahead_readPieces (AtmosChecksum.readSize data.length)
        data.length f 0).fseeko seeks
      unfold checksumBody
      dsimp only
      rw [htell]
      dsimp only
      rw [AtmosChecksum.updateFile_eq hstreams, hdata]
      dsimp only
      rw [hback]
      rfl

/-- The branch for `ATMOS_WSCHECKSUM`: what holds `data` is as good as `data`
in memory. -/
theorem wschecksum_of_holds {env : Env} (hstreams : env.openssl.Streams)
    {source : BodySource} {data : List UInt8} (h : source.Holds data)
    (hlength : data.length < 9223372036854775808) (checksum : AtmosChecksum)
    (contentType : Option CStr) (fileFilter : Bool) (x : Exchange) :
    wschecksum env checksum (x.setBody ⟨source, contentType, fileFilter⟩) =
      (wschecksum env checksum (x.setBody ⟨.array data, contentType, fileFilter⟩)).map
        (Step.map (·.setBody ⟨source.readOnce, contentType, fileFilter⟩)
          (·.setBody ⟨source.readOnce, contentType, fileFilter⟩)) := by
  unfold wschecksum
  dsimp only [Exchange.requestBody_setBody]
  rw [checksumBody_of_holds hstreams h hlength, checksumBody_of_holds hstreams .array hlength]
  dsimp only
  cases (checksum.update env.openssl data).getState env.openssl with
  | none => rfl
  | some state => cases state <;> rfl

/-- The other headers are no headers for a checksum. -/
theorem missing_objectHeaders {env : Env} {metadata listableMeta : List AtmosMetadata}
    {acl : List AtmosAclEntry} {x y : Exchange}
    (hy : addObjectHeaders env metadata listableMeta acl x = some y)
    (h : env.rest.getHeaderValue x.headers atmosHeaderWschecksum = none) :
    env.rest.getHeaderValue y.headers atmosHeaderWschecksum = none := by
  have hothers := (named_objectHeaders env metadata listableMeta acl).linesNamed_eq_nil
    (show ∀ other ∈ _, colon ∉ other ∧
      ByteText.lowercase other ≠ ByteText.lowercase atmosHeaderWschecksum by decide)
  rw [getHeaderValue_eq_none] at h ⊢
  rw [addObjectHeaders_eq_some hy, Exchange.headers_addHeaders, linesNamed_append, h, hothers]
  rfl

theorem setChecksumHeader_of_missing {env : Env} {checksum : AtmosChecksum} {x : Exchange}
    (hmode : checksum.mode = .wschecksum)
    (hmissing : env.rest.getHeaderValue x.headers atmosHeaderWschecksum = none) :
    setChecksumHeader env (some checksum) x = wschecksum env checksum x := by
  simp [setChecksumHeader, hmode, hmissing]

/-- **A write with a checksum** that is not stated yet: the other headers, and
then the one for the checksum. -/
theorem setWriteHeaders_eq_bind {env : Env} {x : Exchange} {req : AtmosWriteObjectRequest}
    {checksum : AtmosChecksum} (hreq : x.request.fields.asWrite = some req)
    (hchecksum : req.checksum = some checksum) (hmode : checksum.mode = .wschecksum)
    (hmissing : env.rest.getHeaderValue x.headers atmosHeaderWschecksum = none)
    (body : RequestBody) :
    setWriteHeaders env (x.setBody body) =
      (addObjectHeaders env req.metadata req.listableMeta req.acl x).bind fun y =>
        wschecksum env checksum (y.setBody body) := by
  have hobject := addObjectHeaders_congr env req.metadata req.listableMeta req.acl x
    (x.setBody body)
  unfold setWriteHeaders
  rw [Exchange.fields_setBody, hreq]
  -- with a body there is no content type to add
  change ((addObjectHeaders env req.metadata req.listableMeta req.acl (x.setBody body)).bind
    fun y => setChecksumHeader env req.checksum y) = _
  rw [hobject, hchecksum]
  cases hheaders : addObjectHeaders env req.metadata req.listableMeta req.acl x with
  | none => rfl
  | some y =>
      have hnone := missing_objectHeaders hheaders hmissing
      obtain rfl := addObjectHeaders_eq_some hheaders
      exact setChecksumHeader_of_missing hmode hnone

/-- **A file is written as its bytes in memory are**: the filter leaves the
same headers, the same checksum and the same response, and the file where it
was. -/
theorem setWriteHeaders_of_holds {env : Env} (hstreams : env.openssl.Streams) {x : Exchange}
    {req : AtmosWriteObjectRequest} {checksum : AtmosChecksum}
    (hreq : x.request.fields.asWrite = some req) (hchecksum : req.checksum = some checksum)
    (hmode : checksum.mode = .wschecksum)
    (hmissing : env.rest.getHeaderValue x.headers atmosHeaderWschecksum = none)
    {source : BodySource} {data : List UInt8} (h : source.Holds data)
    (hlength : data.length < 9223372036854775808) (contentType : Option CStr)
    (fileFilter : Bool) :
    setWriteHeaders env (x.setBody ⟨source, contentType, fileFilter⟩) =
      (setWriteHeaders env (x.setBody ⟨.array data, contentType, fileFilter⟩)).map
        (Step.map (·.setBody ⟨source.readOnce, contentType, fileFilter⟩)
          (·.setBody ⟨source.readOnce, contentType, fileFilter⟩)) := by
  rw [setWriteHeaders_eq_bind hreq hchecksum hmode hmissing,
    setWriteHeaders_eq_bind hreq hchecksum hmode hmissing]
  cases addObjectHeaders env req.metadata req.listableMeta req.acl x with
  | none => rfl
  | some y => exact wschecksum_of_holds hstreams h hlength checksum contentType fileFilter y

/-- What a write leaves behind: the header states the checksum after the
body. -/
theorem setWriteHeaders_eq_next_of_holds {env : Env} (hstreams : env.openssl.Streams)
    {x y : Exchange} {req : AtmosWriteObjectRequest} {checksum : AtmosChecksum}
    (hreq : x.request.fields.asWrite = some req) (hchecksum : req.checksum = some checksum)
    (hmode : checksum.mode = .wschecksum)
    (hmissing : env.rest.getHeaderValue x.headers atmosHeaderWschecksum = none)
    (hheaders : addObjectHeaders env req.metadata req.listableMeta req.acl x = some y)
    {source : BodySource} {data : List UInt8} (h : source.Holds data)
    (hlength : data.length < 9223372036854775808) (contentType : Option CStr)
    (fileFilter : Bool) {state : CStr}
    (hstate : (checksum.update env.openssl data).getState env.openssl = some (some state)) :
    setWriteHeaders env (x.setBody ⟨source, contentType, fileFilter⟩) =
      some (.next (((y.setChecksum (checksum.update env.openssl data)).setBody
        ⟨source.readOnce, contentType, fileFilter⟩).addHeader
          (headerLine atmosHeaderWschecksum state))) := by
  rw [setWriteHeaders_eq_bind hreq hchecksum hmode hmissing, hheaders, Option.bind_some]
  unfold wschecksum
  dsimp only [Exchange.requestBody_setBody]
  rw [checksumBody_of_holds hstreams h hlength]
  dsimp only
  obtain ⟨-, -, -, -, -, hshort⟩ := AtmosChecksum.getState_eq_some env.openssl hstate
  have hname : atmosHeaderWschecksum.length = 16 := rfl
  have hsize : atmosSimpleHeaderMax = 255 := rfl
  rw [hstate, Option.bind_eq_bind, Option.bind_some]
  dsimp only
  rw [snprintf_headerLine_fits (by omega)]

end AtmosFilter

/-! ## Writes that share a checksum -/

/-- The checksum a write request points to. -/
def Exchange.checksum (x : Exchange) : Option AtmosChecksum :=
  x.request.fields.asWrite.bind (·.checksum)

/-- A request as the application has set it up, and what it is executed
with. -/
structure Write where
  env : Env
  exchange : Exchange

/-- Writes in a row whose requests point to one checksum: every filter works on
it as the one before left it. -/
def writeTogether : AtmosChecksum → List Write → Option (List Exchange)
  | _, [] => some []
  | checksum, w :: writes => do
      let step ← AtmosFilter.setWriteHeaders w.env (w.exchange.setChecksum checksum)
      let y ← step.passed
      let checksum ← y.checksum
      let ys ← writeTogether checksum writes
      some (y :: ys)

/-- A write of `data`: its metadata and its ACL can be written, and there is no
header for a checksum yet. -/
structure Write.Carries (openssl : Openssl) (w : Write) (data : List UInt8) : Prop where
  openssl_eq : w.env.openssl = openssl
  body : ∃ source contentType fileFilter, source.Holds data ∧
    w.exchange.request.parent.requestBody = some ⟨source, contentType, fileFilter⟩
  headers : ∃ req, w.exchange.request.fields.asWrite = some req ∧
    (AtmosFilter.addObjectHeaders w.env req.metadata req.listableMeta req.acl
      w.exchange).isSome
  missing : w.env.rest.getHeaderValue w.exchange.headers atmosHeaderWschecksum = none

/-- The request has one header for a checksum, and it states the length and the
digest of `total`. -/
def Exchange.StatesTotal (openssl : Openssl) (alg : AtmosChecksumAlg) (algorithm : CStr)
    (total : List UInt8) (x : Exchange) : Prop :=
  ∃ digest, openssl.digest alg total = some digest ∧
    linesNamed atmosHeaderWschecksum x.headers = [headerLine atmosHeaderWschecksum
      (algorithm ++ bytes "/" ++ decimal total.length ++ bytes "/" ++ hexText digest)]

theorem RequestFields.asWrite_setChecksum {fields : RequestFields}
    {write : AtmosWriteObjectRequest} (h : fields.asWrite = some write)
    (checksum : AtmosChecksum) :
    (fields.setChecksum checksum).asWrite = some { write with checksum := some checksum } := by
  cases fields <;> cases h <;> rfl

/-- What the request looks like after its checksum was stated. -/
theorem stated_checksum {env : Env} {x y : Exchange} {req : AtmosWriteObjectRequest}
    (hreq : x.request.fields.asWrite = some req)
    (hmissing : env.rest.getHeaderValue x.headers atmosHeaderWschecksum = none)
    (hy : AtmosFilter.addObjectHeaders env req.metadata req.listableMeta req.acl x = some y)
    (checksum : AtmosChecksum) (body : RequestBody) (state : CStr) :
    (((y.setChecksum checksum).setBody body).addHeader
        (headerLine atmosHeaderWschecksum state)).checksum = some checksum ∧
      linesNamed atmosHeaderWschecksum (((y.setChecksum checksum).setBody body).addHeader
        (headerLine atmosHeaderWschecksum state)).headers =
          [headerLine atmosHeaderWschecksum state] := by
  constructor
  · have hfields : y.request.fields = x.request.fields := by
      rw [addObjectHeaders_eq_some hy, Exchange.fields_addHeaders]
    rw [← hfields] at hreq
    have hfed := RequestFields.asWrite_setChecksum hreq checksum
    exact congrArg (Option.bind · (·.checksum)) hfed
  · have hnone := getHeaderValue_eq_none.mp (AtmosFilter.missing_objectHeaders hy hmissing)
    have hline := linesNamed_line (show colon ∉ atmosHeaderWschecksum by decide)
      (space :: state)
    rw [← headerLine_eq] at hline
    have happend := linesNamed_append atmosHeaderWschecksum y.headers
      [headerLine atmosHeaderWschecksum state]
    rwa [hnone, hline, List.nil_append] at happend

/-- A write that goes through has fed its body and states the result. -/
theorem states_of_setWriteHeaders {env : Env} (hstreams : env.openssl.Streams)
    {x z : Exchange} {req : AtmosWriteObjectRequest} {checksum : AtmosChecksum}
    (hreq : x.request.fields.asWrite = some req) (hchecksum : req.checksum = some checksum)
    (hmode : checksum.mode = .wschecksum)
    (hmissing : env.rest.getHeaderValue x.headers atmosHeaderWschecksum = none)
    {data : List UInt8} (hlength : data.length < 9223372036854775808)
    (contentType : Option CStr) (fileFilter : Bool)
    (h : AtmosFilter.setWriteHeaders env (x.setBody ⟨.array data, contentType, fileFilter⟩) =
      some (.next z)) :
    z.checksum = some (checksum.update env.openssl data) ∧
      ∃ state, (checksum.update env.openssl data).getState env.openssl = some (some state) ∧
        linesNamed atmosHeaderWschecksum z.headers =
          [headerLine atmosHeaderWschecksum state] := by
  have hpath := h
  rw [AtmosFilter.setWriteHeaders_eq_bind hreq hchecksum hmode hmissing] at hpath
  obtain ⟨y, hy, hpath⟩ := Option.bind_eq_some_iff.mp hpath
  unfold AtmosFilter.wschecksum at hpath
  dsimp only [Exchange.requestBody_setBody] at hpath
  rw [AtmosFilter.checksumBody_of_holds hstreams .array hlength] at hpath
  dsimp only at hpath
  obtain ⟨result, hstate, hpath⟩ := Option.bind_eq_some_iff.mp hpath
  cases result with
  | none => cases hpath
  | some state =>
      have hnext := AtmosFilter.setWriteHeaders_eq_next_of_holds hstreams hreq hchecksum hmode
        hmissing hy .array hlength contentType fileFilter hstate
      rw [h] at hnext
      cases hnext
      obtain ⟨hfed, hlines⟩ := stated_checksum hreq hmissing hy
        (checksum.update env.openssl data) ⟨.array data, contentType, fileFilter⟩ state
      exact ⟨hfed, state, hstate, hlines⟩

/-- **One write** feeds its body and states the result. -/
theorem Write.Carries.step {openssl : Openssl} (hstreams : openssl.Streams) {w : Write}
    {data : List UInt8} (h : w.Carries openssl data)
    (hlength : data.length < 9223372036854775808) {checksum : AtmosChecksum}
    (hmode : checksum.mode = .wschecksum) {state : CStr}
    (hstate : (checksum.update openssl data).getState openssl = some (some state)) :
    ∃ y, AtmosFilter.setWriteHeaders w.env (w.exchange.setChecksum checksum) = some (.next y) ∧
      y.checksum = some (checksum.update openssl data) ∧
      linesNamed atmosHeaderWschecksum y.headers =
        [headerLine atmosHeaderWschecksum state] := by
  obtain ⟨rfl, ⟨source, contentType, fileFilter, hholds, hbody⟩, ⟨req, hreq, hheaders⟩,
    hmissing⟩ := h
  have hwrite : (w.exchange.setChecksum checksum).request.fields.asWrite = _ :=
    RequestFields.asWrite_setChecksum hreq checksum
  rw [← AtmosFilter.addObjectHeaders_isSome w.env req.metadata req.listableMeta req.acl
    w.exchange (w.exchange.setChecksum checksum)] at hheaders
  obtain ⟨y, hy⟩ := Option.isSome_iff_exists.mp hheaders
  have hnext := AtmosFilter.setWriteHeaders_eq_next_of_holds
    (x := w.exchange.setChecksum checksum) hstreams hwrite rfl hmode hmissing hy hholds hlength
    contentType fileFilter hstate
  rw [Exchange.setBody_of_requestBody (x := w.exchange.setChecksum checksum) hbody] at hnext
  exact ⟨_, hnext, stated_checksum hwrite hmissing hy _ _ state⟩

/-- **Writes that share a checksum** go through, and each states the length and
the digest of everything up to its own body. -/
theorem writeTogether_eq_some {openssl : Openssl} (hstreams : openssl.Streams)
    (hfinal : openssl.Finalizes) {alg : AtmosChecksumAlg} {context algorithm : List UInt8}
    (hinit : (AtmosChecksum.init openssl .wschecksum alg).internalState = some context)
    (halgorithm : alg.algorithm = some algorithm) {writes : List Write}
    {bodies : List (List UInt8)} (h : List.Forall₂ (Write.Carries openssl) writes bodies)
    (before : List UInt8) (hlength : (before ++ bodies.flatten).length < 9223372036854775808) :
    ∃ ys, writeTogether ((AtmosChecksum.init openssl .wschecksum alg).update openssl before)
        writes = some ys ∧
      ys.length = writes.length ∧
      ∀ (k : Nat) (y : Exchange), ys[k]? = some y →
        y.StatesTotal openssl alg algorithm (before ++ (bodies.take (k + 1)).flatten) := by
  induction h generalizing before with
  | nil =>
      refine ⟨[], rfl, rfl, ?_⟩
      intro k y hy
      cases hy
  | @cons w data writes bodies hw hwrites ih =>
      rw [List.flatten_cons, ← List.append_assoc] at hlength
      have hbefore : (before ++ data).length < 9223372036854775808 := by
        rw [List.length_append] at hlength
        omega
      have hdata : data.length < 9223372036854775808 := by
        rw [List.length_append] at hbefore
        omega
      obtain ⟨digest, hdigest⟩ := Option.isSome_iff_exists.mp
        (hfinal alg (openssl.hashUpdate alg context (before ++ data)))
      obtain ⟨-, -, hstate⟩ :=
        AtmosChecksum.getState_init_update hinit halgorithm hdigest hbefore
      rw [← AtmosChecksum.update_append hstreams] at hstate
      obtain ⟨y, hy, hchecksum, hlines⟩ := hw.step hstreams hdata
        (AtmosChecksum.update_mode _ before) hstate
      rw [AtmosChecksum.update_append hstreams] at hchecksum
      obtain ⟨ys, hys, hcount, hstates⟩ := ih (before ++ data) hlength
      refine ⟨y :: ys, ?_, ?_, ?_⟩
      · rw [writeTogether, hy]
        simp [Step.passed, hchecksum, hys]
      · rw [List.length_cons, List.length_cons, hcount]
      · intro k z hz
        cases k with
        | zero =>
            obtain rfl : y = z := Option.some.inj hz
            refine ⟨digest, ?_, ?_⟩
            · rw [Openssl.digest, (AtmosChecksum.init_internalState hinit).1]
              simpa using hdigest
            · simpa using hlines
        | succ k =>
            have hlater := hstates k z hz
            rwa [List.append_assoc, ← List.flatten_cons, ← List.take_succ_cons] at hlater

/-- **Bodies in memory and in files.**  A file is written as its bytes in memory
are, and is left where it was; and writes that share a checksum state the
length and the digest of all bodies so far. -/
theorem wschecksum_array_and_file {openssl : Openssl} (hstreams : openssl.Streams)
    (hfinal : openssl.Finalizes) :
    (∀ (env : Env) (x : Exchange) (req : AtmosWriteObjectRequest) (checksum : AtmosChecksum)
        (f : FileStream) (data : List UInt8) (contentType : Option CStr),
      env.openssl = openssl → x.request.fields.asWrite = some req →
      req.checksum = some checksum → checksum.mode = .wschecksum →
      env.rest.getHeaderValue x.headers atmosHeaderWschecksum = none →
      BodySource.Holds data (.file f data.length) → data.length < 9223372036854775808 →
      ∃ f' : FileStream, f'.bytes = f.bytes ∧ f'.position = f.position ∧
        AtmosFilter.setWriteHeaders env
            (x.setBody ⟨.file f data.length, contentType, false⟩) =
          (AtmosFilter.setWriteHeaders env (x.setBody ⟨.array data, contentType, false⟩)).map
            (Step.map (·.setBody ⟨.file f' data.length, contentType, false⟩)
              (·.setBody ⟨.file f' data.length, contentType, false⟩)) ∧
        ∀ y, AtmosFilter.setWriteHeaders env
            (x.setBody ⟨.array data, contentType, false⟩) = some (.next y) →
          y.checksum = some (checksum.update openssl data) ∧
          ∃ state, (checksum.update openssl data).getState openssl = some (some state) ∧
            linesNamed atmosHeaderWschecksum y.headers =
              [headerLine atmosHeaderWschecksum state]) ∧
    (∀ (alg : AtmosChecksumAlg) (writes : List Write) (bodies : List (List UInt8)),
      (AtmosChecksum.init openssl .wschecksum alg).internalState.isSome →
      List.Forall₂ (Write.Carries openssl) writes bodies →
      bodies.flatten.length < 9223372036854775808 →
      ∃ algorithm ys, alg.algorithm = some algorithm ∧
        writeTogether (AtmosChecksum.init openssl .wschecksum alg) writes = some ys ∧
        ys.length = writes.length ∧
        ∀ (k : Nat) (y : Exchange), ys[k]? = some y →
          y.StatesTotal openssl alg algorithm (bodies.take (k + 1)).flatten) := by
  constructor
  · intro env x req checksum f data contentType hopenssl hreq hchecksum hmode hmissing hholds
      hlength
    subst hopenssl
    refine ⟨{ f with limits := (f.readPieces (AtmosChecksum.readSize data.length) data.length
      0).2.limits }, rfl, rfl, AtmosFilter.setWriteHeaders_of_holds hstreams hreq hchecksum hmode
      hmissing hholds hlength contentType false, ?_⟩
    intro y hy
    exact states_of_setWriteHeaders hstreams hreq hchecksum hmode hmissing hlength contentType
      false hy
  · intro alg writes bodies hinit hwrites hlength
    obtain ⟨context, hcontext⟩ := Option.isSome_iff_exists.mp hinit
    obtain ⟨-, algorithm, halgorithm⟩ := AtmosChecksum.init_internalState hcontext
    obtain ⟨ys, hys, hcount, hstates⟩ := writeTogether_eq_some hstreams hfinal hcontext
      halgorithm hwrites [] hlength
    rw [AtmosChecksum.update_nil hstreams] at hys
    exact ⟨algorithm, ys, halgorithm, hys, hcount, hstates⟩

/-- The reader's client, with the recorded digests. -/
def appendEnv : Env := { readerEnv with openssl := .replayDigests AtmosChecksum.helloDigests }

/-- An update of an object with a body. -/
def appendRequest (source : BodySource) : Exchange where
  request := (AtmosUpdateObjectRequest.init (bytes "0123")).configure
    (.updateObject .zero .whole) (some ⟨source, none, false⟩)
  response := .init .atmosResponse
  trace := []

/-- The first part from memory, the second from a file. -/
theorem wschecksum_array_and_file_hello :
    (∃ f' : FileStream, f'.position = 3 ∧
      AtmosFilter.setWriteHeaders appendEnv (((appendRequest (.array [])).setChecksum
          (.init appendEnv.openssl .wschecksum .sha1)).setBody
            ⟨.file AtmosChecksum.worldFile 6, none, false⟩) =
        (AtmosFilter.setWriteHeaders appendEnv (((appendRequest (.array [])).setChecksum
          (.init appendEnv.openssl .wschecksum .sha1)).setBody
            ⟨.array (bytes " world"), none, false⟩)).map
          (Step.map (·.setBody ⟨.file f' 6, none, false⟩)
            (·.setBody ⟨.file f' 6, none, false⟩))) ∧
    ∃ ys, writeTogether (.init appendEnv.openssl .wschecksum .sha1)
        [⟨appendEnv, appendRequest (.array (bytes "hello"))⟩,
          ⟨appendEnv, appendRequest (.file AtmosChecksum.worldFile 6)⟩] = some ys ∧
      ∀ y, ys[1]? = some y → linesNamed atmosHeaderWschecksum y.headers =
        [bytes "x-emc-wschecksum: sha1/11/2aae6c35c94fcfb415dbe95f408b9ce91ee846ed"] := by
  have hworld : BodySource.Holds (bytes " world") (.file AtmosChecksum.worldFile 6) := by
    refine @BodySource.Holds.file (bytes " world") _ ?_ ?_ rfl rfl
    · decide
    · unfold FileStream.Delivers AtmosChecksum.worldFile
      decide
  have hfirst : Write.Carries appendEnv.openssl
      ⟨appendEnv, appendRequest (.array (bytes "hello"))⟩ (bytes "hello") :=
    ⟨rfl, ⟨_, none, false, .array, rfl⟩, ⟨.zero, rfl, rfl⟩, rfl⟩
  have hsecond : Write.Carries appendEnv.openssl
      ⟨appendEnv, appendRequest (.file AtmosChecksum.worldFile 6)⟩ (bytes " world") :=
    ⟨rfl, ⟨_, none, false, hworld, rfl⟩, ⟨.zero, rfl, rfl⟩, rfl⟩
  obtain ⟨hsame, htotals⟩ := @wschecksum_array_and_file appendEnv.openssl
    (Openssl.replayDigests_streams _) (Openssl.replayDigests_finalizes _)
  obtain ⟨f', -, hposition, hfile, -⟩ := hsame appendEnv ((appendRequest (.array [])).setChecksum
    (.init appendEnv.openssl .wschecksum .sha1)) _ _ AtmosChecksum.worldFile (bytes " world") none
    rfl rfl rfl rfl rfl hworld (by decide)
  obtain ⟨algorithm, ys, halgorithm, hys, -, hstates⟩ := htotals .sha1 _ _ rfl
    (.cons hfirst (.cons hsecond .nil)) (by decide)
  refine ⟨⟨f', hposition, hfile⟩, ys, hys, ?_⟩
  intro y hy
  obtain ⟨digest, hdigest, hlines⟩ := hstates 1 y hy
  cases halgorithm
  have hbodies : ([bytes "hello", bytes " world"].take (1 + 1)).flatten = bytes "hello world" := by
    decide
  have hrecorded : appendEnv.openssl.digest .sha1 (bytes "hello world") =
      some [42, 174, 108, 53, 201, 79, 207, 180, 21, 219, 233, 95, 64, 139, 156, 233, 30,
        232, 70, 237] := by decide
  rw [hbodies] at hdigest hlines
  obtain rfl := Option.some.inj (hrecorded.symm.trans hdigest)
  exact hlines

end Atmos
