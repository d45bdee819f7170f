import Atmos.AbortedWrites

/-!
# Checksums compared after sending

In the mode `ATMOS_GENERATE_CHECKSUM` the server is asked for a checksum, and
the client makes its own: of bytes in memory in the write filter, and of a file
while its chunks are sent.  `AtmosChecksum_verify_response` compares the two.

* `setWriteHeaders_transfer` — a checksum is fed exactly the bytes that are sent;
* `verifyResponse_eq` — what the comparison says of a checksum that was fed
  some bytes;
* `verifyResponse_of_sent` — both together.
-/

namespace Atmos

open ByteText FixedMemory FilterChain

/-- `enum atmos_checksum_mode` as a number. -/
def AtmosChecksumMode.toInt : AtmosChecksumMode → Int
  | .wschecksum => 0
  | .generateChecksum => 1

/-- The operator `!`. -/
def logicalNot (n : Int) : Int := if n = 0 then 1 else 0

namespace AtmosChecksum

variable (openssl : Openssl) (spent : AtmosChecksumAlg → List UInt8 → List UInt8)

/-- `AtmosChecksum_verify_response`, with what it does to the object.  The test
of the mode compares its negation. -/
def verifyResponse (rest : RestClient) (self : AtmosChecksum) (headers : List CStr) :
    Option (Bool × AtmosChecksum) :=
  if logicalNot self.mode.toInt = AtmosChecksumMode.generateChecksum.toInt then some (true, self)
  else
    (rest.getHeaderValue headers atmosHeaderContentChecksum).elim (some (false, self))
      fun rvalue => do
        let (lvalue, self) ← self.getValueCall openssl spent
        lvalue.elim (some (false, self)) fun lvalue => do
          let algorithm ← self.alg.algorithm
          let buffer := snprintf atmosSimpleHeaderMax (algorithm ++ bytes "/" ++ lvalue)
          some (decide (buffer = ByteText.lowercase rvalue), self)

/-- The negation of a mode is `ATMOS_GENERATE_CHECKSUM` for the other mode
only. -/
theorem logicalNot_mode (mode : AtmosChecksumMode) :
    logicalNot mode.toInt = AtmosChecksumMode.generateChecksum.toInt ↔ mode = .wschecksum := by
  cases mode <;> decide

theorem verifyResponse_wschecksum (rest : RestClient) {self : AtmosChecksum}
    (hmode : self.mode = .wschecksum) (headers : List CStr) :
    self.verifyResponse openssl spent rest headers = some (true, self) :=
  if_pos ((logicalNot_mode self.mode).mpr hmode)

/-- The value of a checksum that was fed `data` since it was made. -/
theorem getValueCall_init_update {openssl : Openssl} {mode : AtmosChecksumMode}
    {alg : AtmosChecksumAlg} (hinit : (init openssl mode alg).internalState.isSome)
    (data : List UInt8) :
    ((init openssl mode alg).update openssl data).getValueCall openssl spent =
      some ((openssl.digest alg data).map hexText,
        (init openssl mode alg).update openssl data) := by
  obtain ⟨context, hcontext⟩ := Option.isSome_iff_exists.mp hinit
  obtain ⟨hmade, -⟩ := init_internalState hcontext
  rw [getValueCall_eq, init_update hcontext, Openssl.digest, hmade]
  unfold getValue
  cases alg with
  | unknown code => cases hcontext
  | sha0 | sha1 | md5 =>
      simp only [Option.map_some, Option.bind_eq_bind, Option.bind_some]
      rw [show toHexString = hexText from funext toHexString_eq]

/-- **The comparison**: with a checksum that was made for the server's own one
and was fed `data`. -/
theorem verifyResponse_eq {openssl : Openssl} (rest : RestClient) {alg : AtmosChecksumAlg}
    (hinit : (init openssl .generateChecksum alg).internalState.isSome) {algorithm : CStr}
    (halgorithm : alg.algorithm = some algorithm) (data : List UInt8) (headers : List CStr) :
    ∃ verified, ((init openssl .generateChecksum alg).update openssl data).verifyResponse openssl
        spent rest headers =
          some (verified, (init openssl .generateChecksum alg).update openssl data) ∧
      (verified = true ↔ ∃ value digest,
        rest.getHeaderValue headers atmosHeaderContentChecksum = some value ∧
        openssl.digest alg data = some digest ∧
        ByteText.lowercase value = algorithm ++ bytes "/" ++ hexText digest) := by
  have hmode : ((init openssl .generateChecksum alg).update openssl data).mode ≠ .wschecksum := by
    rw [update_mode]
    exact AtmosChecksumMode.noConfusion
  unfold verifyResponse
  rw [if_neg (fun h => hmode ((logicalNot_mode _).mp h)), getValueCall_init_update spent hinit]
  cases hvalue : rest.getHeaderValue headers atmosHeaderContentChecksum with
  | none => exact ⟨false, rfl, by simp⟩
  | some value =>
      cases hdigest : openssl.digest alg data with
      | none => exact ⟨false, rfl, by simp⟩
      | some digest =>
          have hname := AtmosChecksumAlg.length_algorithm_le halgorithm
          have hshort : (algorithm ++ bytes "/" ++ hexText digest).length < 255 := by
            have hfinal : ∃ context, openssl.hashFinal alg context = some digest := by
              obtain ⟨context, -, hfinal⟩ := Option.bind_eq_some_iff.mp hdigest
              exact ⟨_, hfinal⟩
            obtain ⟨context, hfinal⟩ := hfinal
            have hlength := openssl.hashFinal_length _ _ _ hfinal
            have hmost := alg.digestLength_le
            have hslash : (bytes "/").length = 1 := rfl
            rw [← toHexString_eq, List.length_append, List.length_append, length_toHexString]
            omega
          refine ⟨decide (ByteText.lowercase value = algorithm ++ bytes "/" ++ hexText digest),
            ?_, by simp⟩
          dsimp only [Option.elim, Option.map, Option.bind_eq_bind, Option.bind]
          rw [update_alg]
          change (alg.algorithm.bind fun algorithm => _) = _
          rw [halgorithm, Option.bind_some, snprintf_of_length_lt hshort]
          simp only [eq_comm]

end AtmosChecksum

/-! ## Sending a body -/

/-- The bytes of a body that are sent, where a file comes in `chunks`. -/
def BodySource.sentBytes (chunks : List (List UInt8)) : BodySource → List UInt8
  | .array data => data
  | .file _ _ => chunks.flatten

namespace Exchange

/-- The bytes of a request that are sent. -/
def sentBytes (chunks : List (List UInt8)) (x : Exchange) : List UInt8 :=
  x.request.parent.requestBody.elim [] fun body => body.source.sentBytes chunks

/-- `AtmosWriteObjectRequest_checksum_filter` -/
def checksumFilter (openssl : Openssl) (x : Exchange) (data : List UInt8) : Exchange :=
  x.checksum.elim x fun checksum => x.setChecksum (checksum.update openssl data)

/-- Sending the body: each chunk of a file goes through the filter that is set
for the body. -/
def transfer (openssl : Openssl) (chunks : List (List UInt8)) (x : Exchange) : Exchange :=
  x.request.parent.requestBody.elim x fun body =>
    match body.source with
    | .array _ => x
    | .file _ _ => if body.fileFilter then chunks.foldl (checksumFilter openssl) x else x

/-- The filter feeds one chunk after the other. -/
theorem checksum_foldl_checksumFilter {openssl : Openssl} (hstreams : openssl.Streams)
    (chunks : List (List UInt8)) {x : Exchange} {checksum : AtmosChecksum}
    (h : x.checksum = some checksum) :
    (chunks.foldl (checksumFilter openssl) x).checksum =
      some (checksum.update openssl chunks.flatten) := by
  induction chunks generalizing x checksum with
  | nil => rw [List.foldl_nil, List.flatten_nil, AtmosChecksum.update_nil hstreams, h]
  | cons chunk chunks ih =>
      have hfed : (x.checksumFilter openssl chunk).checksum =
          some (checksum.update openssl chunk) := by
        unfold checksumFilter
        rw [h]
        exact checksum_setChecksum h _
      rw [List.foldl_cons, ih hfed, List.flatten_cons, AtmosChecksum.update_append hstreams]

end Exchange

/-! ## Feeding what is sent -/

namespace AtmosFilter

open Exchange

/-- The branch for `ATMOS_GENERATE_CHECKSUM` goes through, and the checksum is
fed what is sent: now, or chunk by chunk. -/
theorem generateChecksum_transfer {env : Env} (hstreams : env.openssl.Streams)
    {checksum : AtmosChecksum} {algorithm : CStr}
    (halgorithm : checksum.alg.algorithm = some algorithm) {x : Exchange}
    (hchecksum : x.checksum = some checksum) (chunks : List (List UInt8)) :
    ∃ y, generateChecksum env checksum x = some (.next y) ∧
      (y.transfer env.openssl chunks).checksum =
        some (checksum.update env.openssl (x.sentBytes chunks)) := by
  let line := snprintf atmosSimpleHeaderMax (headerLine atmosHeaderGenerateChecksum algorithm)
  have hsame : (x.addHeader line).request.parent.requestBody = x.request.parent.requestBody := rfl
  unfold generateChecksum sentBytes
  rw [halgorithm]
  dsimp only [Option.bind_eq_bind, Option.bind_some]
  rw [hsame]
  cases hbody : x.request.parent.requestBody with
  | none =>
      refine ⟨_, rfl, ?_⟩
      unfold transfer
      rw [hsame, hbody, Option.elim, Option.elim, AtmosChecksum.update_nil hstreams]
      exact hchecksum
  | some body =>
      obtain ⟨source, contentType, fileFilter⟩ := body
      cases source with
      | array data =>
          have hfed := @checksum_setChecksum (x.addHeader line) checksum hchecksum
            (checksum.update env.openssl data)
          refine ⟨_, rfl, ?_⟩
          unfold transfer
          dsimp only [Option.elim, setChecksum]
          rw [hsame, hbody]
          exact hfed
      | file f dataSize =>
          have hchunks := @checksum_foldl_checksumFilter env.openssl hstreams chunks
            ((x.addHeader line).setBody ⟨.file f dataSize, contentType, true⟩) checksum hchecksum
          exact ⟨_, rfl, hchunks⟩

/-- No header before the checksum's is called like it. -/
theorem getHeader_generateChecksum {env : Env} {body : Option RequestBody}
    {metadata listableMeta : List AtmosMetadata} {acl : List AtmosAclEntry} {headers : List CStr}
    (h : RestClient.getHeader headers atmosHeaderGenerateChecksum = none) :
    RestClient.getHeader (headers ++ (contentTypeHeaders body ++
      objectHeaders env metadata listableMeta acl).map Header.line)
        atmosHeaderGenerateChecksum = none := by
  have hothers : linesNamed atmosHeaderGenerateChecksum ((contentTypeHeaders body ++
      objectHeaders env metadata listableMeta acl).map Header.line) = [] := by
    have htype : Named [httpHeaderContentType] (contentTypeHeaders body) := named_headerIf _ _ _
    exact (htype.append (named_objectHeaders env metadata listableMeta acl)).linesNamed_eq_nil
      (by decide)
  unfold RestClient.getHeader at h ⊢
  rw [List.find?_eq_none] at h ⊢
  unfold linesNamed at hothers
  rw [List.filter_eq_nil_iff] at hothers
  intro line hline
  rcases List.mem_append.mp hline with hbefore | hadded
  · exact h line hbefore
  · exact hothers line hadded

/-- **A write with a checksum for the server's own one** goes through unless one
of its other headers is undefined, and the checksum is fed what is sent. -/
theorem setWriteHeaders_transfer {env : Env} (hstreams : env.openssl.Streams) {x : Exchange}
    {checksum : AtmosChecksum} {algorithm : CStr} (hchecksum : x.checksum = some checksum)
    (hmode : checksum.mode = .generateChecksum)
    (halgorithm : checksum.alg.algorithm = some algorithm)
    (hmissing : RestClient.getHeader x.headers atmosHeaderGenerateChecksum = none)
    (hdefined : (setWriteHeaders env x).isSome) (chunks : List (List UInt8)) :
    ∃ y, setWriteHeaders env x = some (.next y) ∧
      (y.transfer env.openssl chunks).checksum =
        some (checksum.update env.openssl (x.sentBytes chunks)) := by
  obtain ⟨step, hstep⟩ := Option.isSome_iff_exists.mp hdefined
  have hpath := hstep
  unfold setWriteHeaders at hpath
  obtain ⟨req, hreq, hpath⟩ := Option.bind_eq_some_iff.mp hpath
  dsimp only at hpath
  obtain ⟨z, hz, hpath⟩ := Option.bind_eq_some_iff.mp hpath
  have hlines := addObjectHeaders_eq_some hz
  rw [Exchange.addHeader?_if, ← contentTypeHeaders, Exchange.addHeaders_addHeaders,
    ← List.map_append] at hlines
  have hfield : req.checksum = some checksum := by
    unfold Exchange.checksum at hchecksum
    rw [hreq] at hchecksum
    exact hchecksum
  have hnone := @getHeader_generateChecksum env x.request.parent.requestBody req.metadata
    req.listableMeta req.acl x.headers hmissing
  obtain ⟨y, hy, hfed⟩ := @generateChecksum_transfer env hstreams checksum algorithm halgorithm z
    (by rw [hlines]; exact hchecksum) chunks
  refine ⟨y, ?_, ?_⟩
  · rw [hstep, ← hpath, hfield]
    unfold setChecksumHeader
    dsimp only
    rw [hmode]
    dsimp only
    rw [hlines, Exchange.headers_addHeaders, hnone]
    rw [hlines] at hy
    exact hy
  · rw [hfed, hlines]
    rfl

end AtmosFilter

/-- **Verification of a generated checksum.**  A write request with a new
checksum goes through the write filter and is sent, a file in any chunks.
Verifying a response then says whether the response states the digest of
exactly the bytes sent; the other mode accepts every response; and the checksum
stays as it is. -/
theorem verifyResponse_of_sent {env : Env} (hstreams : env.openssl.Streams)
    (spent : AtmosChecksumAlg → List UInt8 → List UInt8) :
    (∀ (x : Exchange) (alg : AtmosChecksumAlg) (chunks : List (List UInt8))
        (headers : List CStr),
      x.checksum = some (AtmosChecksum.init env.openssl .generateChecksum alg) →
      (AtmosChecksum.init env.openssl .generateChecksum alg).internalState.isSome →
      RestClient.getHeader x.headers atmosHeaderGenerateChecksum = none →
      (AtmosFilter.setWriteHeaders env x).isSome →
      ∃ y algorithm checksum verified, AtmosFilter.setWriteHeaders env x = some (.next y) ∧
        alg.algorithm = some algorithm ∧
        (y.transfer env.openssl chunks).checksum = some checksum ∧
        checksum.verifyResponse env.openssl spent env.rest headers = some (verified, checksum) ∧
        (verified = true ↔ ∃ value digest,
          env.rest.getHeaderValue headers atmosHeaderContentChecksum = some value ∧
          env.openssl.digest alg (x.sentBytes chunks) = some digest ∧
          ByteText.lowercase value = algorithm ++ bytes "/" ++ hexText digest)) ∧
    ∀ (checksum : AtmosChecksum) (headers : List CStr), checksum.mode = .wschecksum →
      checksum.verifyResponse env.openssl spent env.rest headers = some (true, checksum) := by
  constructor
  · intro x alg chunks headers hchecksum hinit hmissing hdefined
    obtain ⟨context, hcontext⟩ := Option.isSome_iff_exists.mp hinit
    obtain ⟨-, algorithm, halgorithm⟩ := AtmosChecksum.init_internalState hcontext
    obtain ⟨y, hy, hfed⟩ := AtmosFilter.setWriteHeaders_transfer hstreams hchecksum rfl
      halgorithm hmissing hdefined chunks
    obtain ⟨verified, hverify, hiff⟩ := AtmosChecksum.verifyResponse_eq spent env.rest hinit
      halgorithm (x.sentBytes chunks) headers
    exact ⟨y, algorithm, _, verified, hy, halgorithm, hfed, hverify, hiff⟩
  · intro checksum headers hmode
    exact checksum.verifyResponse_wschecksum env.openssl spent env.rest hmode headers

/-- A file sent in two chunks, and a response in capital letters. -/
theorem verifyResponse_of_sent_hello :
    ∃ y checksum, AtmosFilter.setWriteHeaders appendEnv
        ((appendRequest (.file AtmosChecksum.worldFile 5)).setChecksum
          (.init appendEnv.openssl .generateChecksum .sha1)) = some (.next y) ∧
      (y.transfer appendEnv.openssl [bytes "hel", bytes "lo"]).checksum = some checksum ∧
      checksum.verifyResponse appendEnv.openssl (fun _ _ => []) appendEnv.rest
        [bytes "x-emc-content-checksum: SHA1/AAF4C61DDCC5E8A2DABEDE0F3B482CD9AEA9434D"] =
          some (true, checksum) := by
  obtain ⟨hgenerated, -⟩ := verifyResponse_of_sent
    (show appendEnv.openssl.Streams from Openssl.replayDigests_streams _) (fun _ _ => [])
  obtain ⟨y, algorithm, checksum, verified, hy, halgorithm, hfed, hverify, hiff⟩ := hgenerated
    ((appendRequest (.file AtmosChecksum.worldFile 5)).setChecksum
      (.init appendEnv.openssl .generateChecksum .sha1)) .sha1 [bytes "hel", bytes "lo"]
    [bytes "x-emc-content-checksum: SHA1/AAF4C61DDCC5E8A2DABEDE0F3B482CD9AEA9434D"]
    rfl rfl rfl rfl
  cases halgorithm
  obtain rfl : verified = true := by
    apply hiff.mpr
    refine ⟨bytes "SHA1/AAF4C61DDCC5E8A2DABEDE0F3B482CD9AEA9434D",
      [170, 244, 198, 29, 220, 197, 232, 162, 218, 190, 222, 15, 59, 72, 44, 217, 174,
        169, 67, 77], ?_, ?_, ?_⟩ <;> decide +kernel
  exact ⟨y, checksum, hy, hfed, hverify⟩

end Atmos
