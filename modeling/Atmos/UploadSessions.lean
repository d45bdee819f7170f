import Atmos.AbortedWrites
import Atmos.CheckedAppends
import Atmos.ObjectLookups
import Atmos.ObjectRanges

/-!
# Uploads in parts

For a create and appends with `ATMOS_WSCHECKSUM` the application must use one checksum, and the
server returns an error if the checksum of a request does not match: so say the comments in
`atmos_common.h`.  Here the server puts the bytes of a request where its `Range` header says,
and keeps the object that this makes if the request states the checksum of that object.

* `serverStore` — the server;
* `execute_ready` and `execute_givesUp` — what is sent for a part, and what is fed;
* `session_eq_run` — an upload is a run of `CheckedAppends`;
* `upload_session` — which parts are in the object in the end.
-/

namespace Atmos

open ByteText FixedMemory FilterChain FormattedText

/-! ## The server -/

/-- The bytes that are sent for a body: of a file, those from its position on. -/
def BodySource.bytesToSend : BodySource → List UInt8
  | .array data => data
  | .file f dataSize => f.remaining.take dataSize.toNat

/-- What a checksum states about all bytes so far. -/
def statedText (openssl : Openssl) (alg : AtmosChecksumAlg) (algorithm : CStr)
    (total : List UInt8) : Option CStr :=
  (openssl.digest alg total).map fun digest =>
    algorithm ++ bytes "/" ++ decimal total.length ++ bytes "/" ++ hexText digest

/-- The write a request asks for: at the first byte of its range, which has as many bytes as
its body, or over the whole object. -/
def askedWrite (rest : RestClient) (sent : RestRequest) : Option (CheckedAppends.Write UInt8) :=
  let data := sent.requestBody.elim [] (·.source.bytesToSend)
  (rest.getHeaderValue sent.headers httpHeaderRange).elim
    (some { offset := none, data, arrives := true }) fun value =>
      match ByteRange.read value with
      | some (.between first last) =>
          if last + 1 = first + data.length then
            some { offset := some first, data, arrives := true }
          else none
      | _ => none

/-- The bytes of an object after a request, none where the server refuses it. -/
def serverStore (rest : RestClient) (openssl : Openssl) (alg : AtmosChecksumAlg)
    (algorithm : CStr) (content : List UInt8) (sent : RestRequest) : Option (List UInt8) := do
  let asked ← askedWrite rest sent
  let stated ← rest.getHeaderValue sent.headers atmosHeaderWschecksum
  asked.store content (statedText openssl alg algorithm) (some stated)

/-! ## The application -/

/-- The operations whose requests can have a checksum. -/
inductive UploadKind where
  | createObject
  | updateObject
  deriving DecidableEq, Repr

namespace UploadKind

def call : UploadKind → AtmosRequest → Call
  | createObject => AtmosClient.createObject
  | updateObject => AtmosClient.updateObject

/-- The filters that are added to the default ones. -/
def filters : UploadKind → List RestFilter
  | createObject => [.parseCreateResponse, .setWriteHeaders]
  | updateObject => [.setWriteHeaders, .updateObject]

theorem call_eq (kind : UploadKind) (request : AtmosRequest) :
    kind.call request = AtmosClient.call request kind.filters := by
  cases kind <;> rfl

/-- The requests of an operation. -/
def Accepts : UploadKind → RequestFields → Prop
  | createObject, .writeObject _ => True
  | updateObject, .updateObject .. => True
  | _, _ => False

theorem filters_own (kind : UploadKind) : ∀ f ∈ kind.filters, f.isDefault = false := by
  cases kind <;> decide

end UploadKind

/-- One part of an upload, and whether its request arrives, if it is sent. -/
structure Part where
  env : Env
  kind : UploadKind
  request : AtmosRequest
  response : AtmosResponse
  arrives : Bool

/-- The request of a part, with a pointer to the checksum. -/
def Part.withChecksum (part : Part) (checksum : AtmosChecksum) : AtmosRequest :=
  { part.request with fields := part.request.fields.setChecksum checksum }

def Part.execute (part : Part) (checksum : AtmosChecksum) : Option (Step Exchange Exchange) :=
  (part.kind.call (part.withChecksum checksum)).execute part.env part.response

/-- The exchange after a call, however it ended. -/
def exchangeOf : Step Exchange Exchange → Exchange
  | .next x => x
  | .stop x => x

/-- The request that was sent. -/
def Exchange.sentRequest (x : Exchange) : Option RestRequest :=
  x.trace.findSome? fun
    | .sent request => some request
    | .signed .. => none

/-- An upload, from a checksum and the bytes of the object: which parts the server takes, and
the bytes in the end. -/
def uploadSession (openssl : Openssl) (alg : AtmosChecksumAlg) (algorithm : CStr) :
    AtmosChecksum → List UInt8 → List Part → Option (List Bool × List UInt8)
  | _, content, [] => some ([], content)
  | checksum, content, part :: parts => do
      let step ← part.execute checksum
      let checksum ← (exchangeOf step).checksum
      let stored := if part.arrives then
        (exchangeOf step).sentRequest.bind
          (serverStore part.env.rest openssl alg algorithm content) else none
      let rest ← uploadSession openssl alg algorithm checksum (stored.getD content) parts
      some (stored.isSome :: rest.1, rest.2)

/-! ## Parts -/

/-- The range that is set in a request. -/
def RequestFields.range : RequestFields → ObjectRange
  | .updateObject _ range => range
  | _ => .whole

/-- Where a range puts a body: over the object if none is set, else at the offset it was set
for, with the size of the body. -/
def ObjectRange.PutsAt (range : ObjectRange) (offset : Option Nat) (size : Nat) : Prop :=
  range = .whole ∧ offset = none ∨
    ∃ first length : Int64, ObjectRange.ofOffsetSize first length = some range ∧
      length.toInt = size ∧ ∃ start : Nat, first.toInt = start ∧ offset = some start

/-- A file that does not know its position, or cannot go back. -/
def BodySource.GivesUp : BodySource → Prop
  | .array _ => False
  | .file f _ => f.tells = false ∨ f.seeks = false

/-- A part as an application sets it up, and the write it is for: its body holds the data, or
is a file for which the filter gives up. -/
structure Part.IsFor (openssl : Openssl) (part : Part) (w : CheckedAppends.Write UInt8) :
    Prop where
  openssl_eq : part.env.openssl = openssl
  content : ∀ request, linesNamed httpHeaderRange (part.env.rest.contentHeaders request) = []
  lines : ∀ line ∈ part.request.parent.headers, colon ∈ line
  range_new : linesNamed httpHeaderRange part.request.parent.headers = []
  checksum_new : linesNamed atmosHeaderWschecksum part.request.parent.headers = []
  fields : part.kind.Accepts part.request.fields
  headers : ∀ req x, part.request.fields.asWrite = some req →
    (AtmosFilter.addObjectHeaders part.env req.metadata req.listableMeta req.acl x).isSome
  body : ∃ source contentType fileFilter,
    part.request.parent.requestBody = some ⟨source, contentType, fileFilter⟩ ∧
      (source.Holds w.data ∧ w.data ≠ [] ∧ w.arrives = part.arrives ∧
          part.request.fields.range.PutsAt w.offset w.data.length ∨
        source.GivesUp ∧ w.data = source.fedBytes ∧ w.arrives = false)

section Filters

variable {kind : UploadKind} {fields : RequestFields}

theorem UploadKind.Accepts.cases (h : kind.Accepts fields) :
    (kind = .createObject ∧ ∃ write, fields = .writeObject write) ∨
      (kind = .updateObject ∧ ∃ write range, fields = .updateObject write range) := by
  cases kind with
  | createObject =>
      cases fields with
      | writeObject write => exact .inl ⟨rfl, write, rfl⟩
      | _ => cases h
  | updateObject =>
      cases fields with
      | updateObject write range => exact .inr ⟨rfl, write, range, rfl⟩
      | _ => cases h

theorem UploadKind.Accepts.asWrite (h : kind.Accepts fields) :
    ∃ req, fields.asWrite = some req := by
  rcases h.cases with ⟨-, write, rfl⟩ | ⟨-, write, range, rfl⟩
  · exact ⟨write, rfl⟩
  · exact ⟨write, rfl⟩

theorem UploadKind.Accepts.setChecksum (h : kind.Accepts fields) (checksum : AtmosChecksum) :
    kind.Accepts (fields.setChecksum checksum) ∧
      (fields.setChecksum checksum).range = fields.range := by
  rcases h.cases with ⟨rfl, write, rfl⟩ | ⟨rfl, write, range, rfl⟩
  · exact ⟨trivial, rfl⟩
  · exact ⟨trivial, rfl⟩

/-- The filters of a part: the range of an update, and then the headers of a write. -/
theorem run_uploadFilters {env : Env} {x : Exchange} (h : kind.Accepts x.request.fields) :
    run (kind.filters.reverse.map (RestFilter.before env)) x =
      AtmosFilter.setWriteHeaders env
        (x.addHeaders ((rangeHeaders x.request.fields.range).map Header.line)) := by
  rcases h.cases with ⟨rfl, write, hfields⟩ | ⟨rfl, write, range, hfields⟩
  · have hlines : (rangeHeaders x.request.fields.range).map Header.line = [] := by
      rw [hfields]
      rfl
    rw [hlines, Exchange.addHeaders_nil]
    change run [AtmosFilter.setWriteHeaders env, AtmosFilter.passOn] x = _
    rw [run]
    cases AtmosFilter.setWriteHeaders env x with
    | none => rfl
    | some step => cases step <;> rfl
  · have hrange : AtmosFilter.updateObject x =
        some (.next (x.addHeaders ((rangeHeaders x.request.fields.range).map Header.line))) := by
      rw [AtmosFilter.updateObject, hfields]
      dsimp only
      rw [addRange_eq]
      rfl
    change run [AtmosFilter.updateObject, AtmosFilter.setWriteHeaders env] x = _
    rw [run, hrange]
    exact run_singleton _ _

end Filters

/-- The range header that a part is sent with. -/
theorem sendsRange_part {env : Env}
    (hcontent : ∀ r, linesNamed httpHeaderRange (env.rest.contentHeaders r) = [])
    {kind : UploadKind} {request : AtmosRequest} (haccepts : kind.Accepts request.fields)
    (hown : linesNamed httpHeaderRange request.parent.headers = []) :
    SendsRange env (kind.call request) (rangeValue request.fields.range) := by
  rcases haccepts.cases with ⟨rfl, write, hfields⟩ | ⟨rfl, write, range, hfields⟩
  · have hwhole : request.fields.range = .whole := by rw [hfields]; rfl
    rw [hwhole]
    refine sendsRange_of_appends hcontent hown fun response y hrun => ?_
    rw [show [RestFilter.parseCreateResponse, .setWriteHeaders] =
      UploadKind.createObject.filters from rfl, run_uploadFilters (by rw [hfields]; trivial)]
      at hrun
    dsimp only at hrun
    rw [hwhole] at hrun
    obtain ⟨req, lines, -, rfl, happends⟩ := setWriteHeaders_eq_next hrun
    rw [← List.map_append] at happends
    refine ⟨_, ?_, (appends_addHeaders _ _).trans happends⟩
    have hobject := named_objectHeaders env req.metadata req.listableMeta req.acl
    have hchecksum := named_checksumHeaders env.openssl request.parent.requestBody req.checksum
    exact (((named_headerIf _ _ _).append hobject).append (hchecksum.filter _)).linesNamed_eq_nil
      (by decide)
  · rw [hfields]
    exact updateObject_range hcontent hfields hown

/-- What is sent of a body is what it holds. -/
theorem bytesToSend_readOnce {source : BodySource} {data : List UInt8} (h : source.Holds data) :
    source.readOnce.bytesToSend = data := by
  cases h with
  | array => rfl
  | file ahead delivers tells seeks => exact ahead

/-- The write that is asked for with the range of a part. -/
theorem askedWrite_of_putsAt {rest : RestClient} {sent : RestRequest} {range : ObjectRange}
    (hrange : rest.getHeaderValue sent.headers httpHeaderRange = rangeValue range)
    {data : List UInt8} (hbody : sent.requestBody.elim [] (·.source.bytesToSend) = data)
    (hne : data ≠ []) {offset : Option Nat} (hputs : range.PutsAt offset data.length) :
    askedWrite rest sent = some { offset, data, arrives := true } := by
  unfold askedWrite
  dsimp only
  rw [hbody, hrange]
  rcases hputs with ⟨rfl, rfl⟩ | ⟨first, length, hset, hlength, start, hstart, rfl⟩
  · rfl
  · have hpos := List.length_pos_of_ne_nil hne
    have hunset : (-1 : Int64).toInt = -1 := rfl
    obtain ⟨-, hfirst, hlast⟩ := ofOffsetSize_eq_some.mp hset
    rw [← hfirst] at hstart
    have hlast : range.rangeEnd.toInt = ((start + data.length - 1 : Nat) : Int) := by
      rw [hlast, ← hfirst, hstart, hlength]
      omega
    have hbounds : range.rangeStart ≠ -1 ∧ range.rangeEnd ≠ -1 := by
      constructor <;>
      · intro heq
        have hvalue := congrArg Int64.toInt heq
        omega
    rw [rangeValue_between hbounds.1 hbounds.2, hstart, hlast, Option.elim_some, read_between]
    dsimp only
    rw [if_pos (by omega)]

/-- A statement starts with the name of its algorithm. -/
theorem head_statedText {openssl : Openssl} {alg : AtmosChecksumAlg} {algorithm text : CStr}
    (halgorithm : alg.algorithm = some algorithm) {total : List UInt8}
    (h : statedText openssl alg algorithm total = some text) : text.head? ≠ some space := by
  obtain ⟨digest, -, rfl⟩ := Option.map_eq_some_iff.mp h
  cases alg with
  | unknown code => cases halgorithm
  | sha0 =>
      cases halgorithm
      exact fun hhead => by cases hhead
  | sha1 =>
      cases halgorithm
      exact fun hhead => by cases hhead
  | md5 =>
      cases halgorithm
      exact fun hhead => by cases hhead

/-- The exchange of a part when its write filter runs. -/
def Part.ranged (part : Part) (checksum : AtmosChecksum) : Exchange :=
  Exchange.addHeaders
    { request := part.withChecksum checksum, response := part.response, trace := [] }
    ((rangeHeaders part.request.fields.range).map Header.line)

namespace Part.IsFor

variable {openssl : Openssl} {part : Part} {w : CheckedAppends.Write UInt8}
  (h : part.IsFor openssl w) (checksum : AtmosChecksum)

include h

theorem run_filters :
    run (part.kind.filters.reverse.map (RestFilter.before part.env))
        { request := part.withChecksum checksum, response := part.response, trace := [] } =
      AtmosFilter.setWriteHeaders part.env (part.ranged checksum) := by
  obtain ⟨haccepts, hsame⟩ := h.fields.setChecksum checksum
  rw [run_uploadFilters (x := ⟨part.withChecksum checksum, part.response, []⟩) haccepts,
    Part.ranged, ← hsame]
  rfl

/-- The write filter has what it needs, and makes the header for the checksum. -/
theorem ranged_ready :
    ∃ (req : AtmosWriteObjectRequest) (y : Exchange),
      (part.ranged checksum).request.fields.asWrite =
        some { req with checksum := some checksum } ∧
      part.env.rest.getHeaderValue (part.ranged checksum).headers atmosHeaderWschecksum = none ∧
      AtmosFilter.addObjectHeaders part.env req.metadata req.listableMeta req.acl
        (part.ranged checksum) = some y := by
  obtain ⟨req, hreq⟩ := h.fields.asWrite
  obtain ⟨y, hy⟩ := Option.isSome_iff_exists.mp (h.headers req (part.ranged checksum) hreq)
  refine ⟨req, y, RequestFields.asWrite_setChecksum hreq checksum, ?_, hy⟩
  have hothers : linesNamed atmosHeaderWschecksum
      ((rangeHeaders part.request.fields.range).map Header.line) = [] :=
    (named_rangeHeaders part.request.fields.range).linesNamed_eq_nil (by decide)
  apply getHeaderValue_eq_none.mpr
  change linesNamed _ (part.request.parent.headers ++ _) = _
  rw [linesNamed_append, h.checksum_new, hothers]
  rfl

end Part.IsFor

section Parts

variable {openssl : Openssl} (hstreams : openssl.Streams) (hfinal : openssl.Finalizes)
  {alg : AtmosChecksumAlg} {context algorithm : List UInt8}
  (hinit : (AtmosChecksum.init openssl .wschecksum alg).internalState = some context)
  (halgorithm : alg.algorithm = some algorithm) {part : Part} {w : CheckedAppends.Write UInt8}

include hstreams hfinal hinit halgorithm

/-- The filters of a part whose body can be read: it is fed, and all bytes so far are stated. -/
theorem run_ready (h : part.IsFor openssl w) {source : BodySource} {contentType : Option CStr}
    {fileFilter : Bool}
    (hbody : part.request.parent.requestBody = some ⟨source, contentType, fileFilter⟩)
    (hholds : source.Holds w.data) {fed : List UInt8}
    (hlength : (fed ++ w.data).length < 9223372036854775808) :
    ∃ y text,
      run (part.kind.filters.reverse.map (RestFilter.before part.env))
        { request := part.withChecksum
            ((AtmosChecksum.init openssl .wschecksum alg).update openssl fed)
          response := part.response, trace := [] } = some (.next y) ∧
      y.checksum = some ((AtmosChecksum.init openssl .wschecksum alg).update openssl
        (fed ++ w.data)) ∧
      y.request.parent.requestBody = some ⟨source.readOnce, contentType, fileFilter⟩ ∧
      linesNamed atmosHeaderWschecksum y.headers = [headerLine atmosHeaderWschecksum text] ∧
      statedText openssl alg algorithm (fed ++ w.data) = some text := by
  let checksum := (AtmosChecksum.init openssl .wschecksum alg).update openssl fed
  obtain ⟨req, y, hreq, hnew, hy⟩ := h.ranged_ready checksum
  have hrun := h.run_filters checksum
  obtain rfl := h.openssl_eq
  -- the checksum of all bytes so far
  obtain ⟨digest, hdigest⟩ := Option.isSome_iff_exists.mp
    (hfinal alg (part.env.openssl.hashUpdate alg context (fed ++ w.data)))
  obtain ⟨-, -, hstate⟩ := AtmosChecksum.getState_init_update hinit halgorithm hdigest hlength
  rw [← AtmosChecksum.update_append hstreams] at hstate ⊢
  have hdata : w.data.length < 9223372036854775808 := by
    rw [List.length_append] at hlength
    omega
  have hwritten := AtmosFilter.setWriteHeaders_eq_next_of_holds hstreams hreq rfl
    (AtmosChecksum.update_mode _ fed) hnew hy hholds hdata contentType fileFilter hstate
  rw [Exchange.setBody_of_requestBody (x := part.ranged checksum) hbody] at hwritten
  obtain ⟨hfed, hstated⟩ := stated_checksum hreq hnew hy (checksum.update part.env.openssl w.data)
    ⟨source.readOnce, contentType, fileFilter⟩ _
  refine ⟨_, _, hrun.trans hwritten, hfed, rfl, hstated, ?_⟩
  · rw [statedText, Openssl.digest, (AtmosChecksum.init_internalState hinit).1]
    exact congrArg _ hdigest

/-- **A part that is sent**: its bytes are fed, and the server is asked for its write, with
the checksum of all bytes so far. -/
theorem execute_ready (h : part.IsFor openssl w) {source : BodySource} {contentType : Option CStr}
    {fileFilter : Bool}
    (hbody : part.request.parent.requestBody = some ⟨source, contentType, fileFilter⟩)
    (hholds : source.Holds w.data) (hne : w.data ≠ [])
    (hputs : part.request.fields.range.PutsAt w.offset w.data.length) {fed : List UInt8}
    (hlength : (fed ++ w.data).length < 9223372036854775808) :
    ∃ x sent,
      part.execute ((AtmosChecksum.init openssl .wschecksum alg).update openssl fed) =
        some (.next x) ∧
      x.checksum = some ((AtmosChecksum.init openssl .wschecksum alg).update openssl
        (fed ++ w.data)) ∧
      x.sentRequest = some sent ∧
      askedWrite part.env.rest sent =
        some { offset := w.offset, data := w.data, arrives := true } ∧
      part.env.rest.getHeaderValue sent.headers atmosHeaderWschecksum =
        statedText openssl alg algorithm (fed ++ w.data) := by
  obtain ⟨y, text, hrun, hfed, hbody', hstated, htext⟩ :=
    run_ready hstreams hfinal hinit halgorithm h hbody hholds hlength
  obtain ⟨rfl, hcontent, hlines, hrange, -, haccepts, -, -⟩ := h
  obtain ⟨haccepts', hsame⟩ := haccepts.setChecksum
    ((AtmosChecksum.init part.env.openssl .wschecksum alg).update part.env.openssl fed)
  have hown : ∀ f ∈ part.kind.filters.reverse, f.isDefault = false := fun f hf =>
    part.kind.filters_own f (List.mem_reverse.mp hf)
  obtain ⟨added, -, happends⟩ := run_operationFilters hown hrun
  have hcolon : ∀ line ∈ y.headers, colon ∈ line := by
    rw [happends.headers]
    intro line hline
    rcases List.mem_append.mp hline with hline | hline
    · exact hlines line hline
    · obtain ⟨header, -, rfl⟩ := List.mem_map.mp hline
      exact colon_mem_headerLine _ _
  obtain ⟨x, hexecute⟩ := execute_call_completes hrun hcolon
  have hcall := hexecute
  rw [← part.kind.call_eq] at hcall
  obtain ⟨y', hashString, hrun', -, rfl⟩ := execute_call_eq_next.mp hexecute
  obtain rfl : y = y' := by
    rw [hrun] at hrun'
    exact Step.next.inj (Option.some.inj hrun')
  have htrace : y.trace = [] := happends.trace
  let sent :=
    (requestToSign part.env y.request.parent).addHeader (signatureLine part.env hashString)
  have hsent : Event.sent sent ∈ (y.signedAndSent part.env hashString).trace := by
    rw [Exchange.signedAndSent, htrace]
    exact List.mem_cons_of_mem _ (List.mem_singleton_self _)
  refine ⟨_, sent, hcall, hfed, ?_, ?_, ?_⟩
  · rw [Exchange.sentRequest, Exchange.signedAndSent, htrace]
    rfl
  · have hranged := @sendsRange_part part.env hcontent part.kind (part.withChecksum _) haccepts'
      hrange part.response _ sent hcall hsent
    rw [Part.withChecksum] at hranged
    dsimp only at hranged
    rw [hsame] at hranged
    refine askedWrite_of_putsAt hranged ?_ hne hputs
    change y.request.parent.requestBody.elim [] (·.source.bytesToSend) = w.data
    rw [hbody']
    exact bytesToSend_readOnce hholds
  · have hemc : emcPrefix <+: ByteText.lowercase atmosHeaderWschecksum := by decide
    obtain ⟨y', hrun', -, hlines'⟩ :=
      linesNamed_sent hemc (by decide) part.kind.filters_own hexecute hsent
    obtain rfl : y = y' := by
      rw [hrun] at hrun'
      exact Step.next.inj (Option.some.inj hrun')
    have huid : linesNamed atmosHeaderWschecksum [uidLine part.env] = [] :=
      linesNamed_other (by decide) (by decide) _
    have hnamed : linesNamed atmosHeaderWschecksum [headerLine atmosHeaderWschecksum text] =
        [headerLine atmosHeaderWschecksum text] := by
      rw [headerLine_eq]
      exact linesNamed_line (by decide) _
    rw [hstated, huid, List.append_nil, ← hnamed] at hlines'
    have hvalue := @getHeaderValue_of_lines part.env.rest sent.headers True _
      atmosHeaderWschecksum text hlines' (by decide) fun _ => head_statedText halgorithm htext
    rw [hvalue, if_pos trivial, htext]

end Parts

/-- A filter that gives up on a file. -/
theorem setWriteHeaders_of_givesUp {env : Env} {x y : Exchange} {req : AtmosWriteObjectRequest}
    {checksum : AtmosChecksum} (hreq : x.request.fields.asWrite = some req)
    (hchecksum : req.checksum = some checksum) (hmode : checksum.mode = .wschecksum)
    (hmissing : env.rest.getHeaderValue x.headers atmosHeaderWschecksum = none)
    (hheaders : AtmosFilter.addObjectHeaders env req.metadata req.listableMeta req.acl x = some y)
    {source : BodySource} (hgives : source.GivesUp) (contentType : Option CStr)
    (fileFilter : Bool) :
    ∃ z, AtmosFilter.setWriteHeaders env (x.setBody ⟨source, contentType, fileFilter⟩) =
      some (.stop z) := by
  cases source with
  | array data => cases hgives
  | file f dataSize =>
      cases htells : f.tells with
      | true =>
          have hseeks : f.seeks = false := hgives.resolve_left (by rw [htells]; decide)
          exact setWriteHeaders_of_unseekable hreq hchecksum hmode hmissing hheaders htells hseeks
            dataSize contentType fileFilter
      | false =>
          have hnowhere : f.ftello = none := by simp [FileStream.ftello, htells]
          rw [AtmosFilter.setWriteHeaders_eq_bind hreq hchecksum hmode hmissing, hheaders,
            Option.bind_some]
          unfold AtmosFilter.wschecksum
          dsimp only [Exchange.requestBody_setBody]
          unfold AtmosFilter.checksumBody
          dsimp only
          rw [hnowhere]
          exact ⟨_, rfl⟩

/-- **A part that is given up**: nothing is sent, and what its file delivered is fed. -/
theorem execute_givesUp {openssl : Openssl} (hstreams : openssl.Streams) {part : Part}
    {w : CheckedAppends.Write UInt8} (h : part.IsFor openssl w) {source : BodySource}
    {contentType : Option CStr} {fileFilter : Bool}
    (hbody : part.request.parent.requestBody = some ⟨source, contentType, fileFilter⟩)
    (hgives : source.GivesUp) {checksum : AtmosChecksum} (hmode : checksum.mode = .wschecksum) :
    ∃ x, part.execute checksum = some (.stop x) ∧
      x.checksum = some (checksum.update openssl source.fedBytes) ∧ x.sentRequest = none := by
  obtain ⟨req, y, hreq, hnew, hy⟩ := h.ranged_ready checksum
  have hrun := h.run_filters checksum
  obtain rfl := h.openssl_eq
  obtain ⟨z, hz⟩ := setWriteHeaders_of_givesUp hreq rfl hmode hnew hy hgives contentType fileFilter
  rw [Exchange.setBody_of_requestBody (x := part.ranged checksum) hbody] at hz
  obtain ⟨checksum', body, hchecksum, hbody', hfed⟩ :=
    AtmosFilter.setWriteHeaders_eq_stop hstreams hz
  obtain rfl : checksum = checksum' := by
    rw [Exchange.checksum, hreq] at hchecksum
    exact Option.some.inj hchecksum
  obtain rfl := Option.some.inj (hbody.symm.trans hbody')
  refine ⟨z, ?_, hfed.checksum, ?_⟩
  · rw [Part.execute, UploadKind.call_eq, Call.execute, RestClient.executeRequest,
      AtmosClient.call, foldl_add, List.map_append]
    exact run_append_of_stop (hrun.trans hz) _
  · rw [Exchange.sentRequest, hfed.trace]
    rfl

/-! ## Uploads -/

theorem slash_notMem_decimal (n : Nat) : (47 : UInt8) ∉ decimal n := by
  rw [decimal_natCast]
  intro hmem
  have hdigit := isDigit_of_mem_digits hmem
  revert hdigit
  decide

/-- Statements about numbers of bytes that differ are different. -/
theorem length_of_statedText {openssl : Openssl} (hfinal : openssl.Finalizes)
    {alg : AtmosChecksumAlg} {context algorithm : List UInt8}
    (hinit : openssl.hashInit alg = some context) {total total' : List UInt8}
    (h : statedText openssl alg algorithm total = statedText openssl alg algorithm total') :
    total.length = total'.length := by
  have hsome : ∀ total, ∃ digest, openssl.digest alg total = some digest := fun total => by
    rw [Openssl.digest, hinit]
    exact Option.isSome_iff_exists.mp (hfinal alg _)
  obtain ⟨digest, hdigest⟩ := hsome total
  obtain ⟨digest', hdigest'⟩ := hsome total'
  rw [statedText, statedText, hdigest, hdigest', Option.map_some, Option.map_some,
    Option.some_inj] at h
  simp only [List.append_assoc, List.append_cancel_left_eq] at h
  have hcut := congrArg (cut 47) h
  change cut 47 (decimal total.length ++ 47 :: hexText digest) =
    cut 47 (decimal total'.length ++ 47 :: hexText digest') at hcut
  rw [cut_append_sep (slash_notMem_decimal _), cut_append_sep (slash_notMem_decimal _)] at hcut
  have hdecimal := (Prod.mk.inj hcut).1
  rw [decimal_natCast, decimal_natCast] at hdecimal
  have hread := congrArg readDigits hdecimal
  rwa [readDigits_digits, readDigits_digits] at hread

section Uploads

variable {openssl : Openssl} (hstreams : openssl.Streams) (hfinal : openssl.Finalizes)
  {alg : AtmosChecksumAlg} {context algorithm : List UInt8}
  (hinit : (AtmosChecksum.init openssl .wschecksum alg).internalState = some context)
  (halgorithm : alg.algorithm = some algorithm)

include hstreams hfinal hinit halgorithm

/-- **One part**: what the server makes of it is what its write does. -/
theorem execute_part {part : Part} {w : CheckedAppends.Write UInt8} (h : part.IsFor openssl w)
    {fed : List UInt8} (hlength : (fed ++ w.data).length < 9223372036854775808) :
    ∃ step,
      part.execute ((AtmosChecksum.init openssl .wschecksum alg).update openssl fed) =
        some step ∧
      (exchangeOf step).checksum = some ((AtmosChecksum.init openssl .wschecksum alg).update
        openssl (fed ++ w.data)) ∧
      ∀ content,
        (if part.arrives then (exchangeOf step).sentRequest.bind
          (serverStore part.env.rest openssl alg algorithm content) else none) =
        if w.arrives then w.store content (statedText openssl alg algorithm)
          (statedText openssl alg algorithm (fed ++ w.data)) else none := by
  obtain ⟨source, contentType, fileFilter, hbody, hsource⟩ := h.body
  rcases hsource with ⟨hholds, hne, harrives, hputs⟩ | ⟨hgives, hdata, harrives⟩
  · obtain ⟨x, sent, hexecute, hfed, hsent, hasked, hstated⟩ :=
      execute_ready hstreams hfinal hinit halgorithm h hbody hholds hne hputs hlength
    refine ⟨_, hexecute, hfed, fun content => ?_⟩
    obtain ⟨digest, hdigest⟩ := Option.isSome_iff_exists.mp
      (hfinal alg (openssl.hashUpdate alg context (fed ++ w.data)))
    have htext : ∃ text, statedText openssl alg algorithm (fed ++ w.data) = some text := by
      rw [statedText, Openssl.digest, (AtmosChecksum.init_internalState hinit).1]
      exact ⟨_, congrArg _ hdigest⟩
    obtain ⟨text, htext⟩ := htext
    rw [exchangeOf, hsent, Option.bind_some, harrives, serverStore, hasked, hstated, htext]
    rfl
  · obtain ⟨x, hexecute, hfed, hsent⟩ := execute_givesUp hstreams h hbody hgives
      (AtmosChecksum.update_mode (AtmosChecksum.init openssl .wschecksum alg) fed)
    rw [AtmosChecksum.update_append hstreams, ← hdata] at hfed
    refine ⟨_, hexecute, hfed, fun content => ?_⟩
    rw [exchangeOf, hsent, harrives, Option.bind_none, ite_self]
    rfl

/-- **An upload is a run** of the writes its parts are for. -/
theorem session_eq_run {parts : List Part} {writes : List (CheckedAppends.Write UInt8)}
    (h : List.Forall₂ (Part.IsFor openssl) parts writes) (fed content : List UInt8)
    (hlength : (fed ++ writes.flatMap (·.data)).length < 9223372036854775808) :
    uploadSession openssl alg algorithm
        ((AtmosChecksum.init openssl .wschecksum alg).update openssl fed) content parts =
      some (CheckedAppends.run (statedText openssl alg algorithm) fed content writes) := by
  induction h generalizing fed content with
  | nil => rfl
  | @cons part w parts writes hpart _ ih =>
      rw [List.flatMap_cons, ← List.append_assoc] at hlength
      have hfed : (fed ++ w.data).length < 9223372036854775808 := by
        rw [List.length_append] at hlength
        omega
      obtain ⟨step, hexecute, hchecksum, hstored⟩ :=
        execute_part hstreams hfinal hinit halgorithm hpart hfed
      rw [uploadSession, hexecute, Option.bind_eq_bind, Option.bind_some, hchecksum,
        Option.bind_eq_bind, Option.bind_some]
      dsimp only
      rw [hstored content, ih _ _ hlength]
      rfl

end Uploads

/-- A part that arrives has data. -/
theorem data_of_arrives {openssl : Openssl} {parts : List Part}
    {writes : List (CheckedAppends.Write UInt8)}
    (h : List.Forall₂ (Part.IsFor openssl) parts writes) :
    ∀ w ∈ writes, w.arrives = true → w.data ≠ [] := by
  induction h with
  | nil => exact fun w hw => absurd hw List.not_mem_nil
  | cons hpart _ ih =>
      refine List.forall_mem_cons.mpr ⟨fun harrives => ?_, ih⟩
      obtain ⟨source, contentType, fileFilter, -, hsource⟩ := hpart.body
      rcases hsource with ⟨-, hne, -⟩ | ⟨-, -, hlost⟩
      · exact hne
      · rw [hlost] at harrives
        cases harrives

/-- **Which parts are in the object.**  An application uploads an object in parts that point
to one checksum; requests can get lost, and filters can give up on files.  The server takes
the parts that arrive and append, up to the first other one that fed the checksum, and no
part after it; and the object has the bytes of these parts. -/
theorem upload_session {openssl : Openssl} (hstreams : openssl.Streams)
    (hfinal : openssl.Finalizes) {alg : AtmosChecksumAlg} {algorithm : CStr}
    (hinit : (AtmosChecksum.init openssl .wschecksum alg).internalState.isSome = true)
    (halgorithm : alg.algorithm = some algorithm) {parts : List Part}
    {writes : List (CheckedAppends.Write UInt8)}
    (h : List.Forall₂ (Part.IsFor openssl) parts writes) (before : List UInt8)
    (hlength : (before ++ writes.flatMap (·.data)).length < 9223372036854775808) :
    uploadSession openssl alg algorithm
        ((AtmosChecksum.init openssl .wschecksum alg).update openssl before) before parts =
      some (CheckedAppends.taken before.length writes,
        before ++ CheckedAppends.written writes (CheckedAppends.taken before.length writes)) := by
  obtain ⟨context, hcontext⟩ := Option.isSome_iff_exists.mp hinit
  rw [session_eq_run hstreams hfinal hcontext halgorithm h before before hlength,
    CheckedAppends.run_eq (fun hsame => length_of_statedText hfinal
      (AtmosChecksum.init_internalState hcontext).1 hsame) (data_of_arrives h)]

/-- A part that creates an object. -/
def helloPart : Part where
  env := appendEnv
  kind := .createObject
  request :=
    { parent := { RestRequest.init (bytes "/rest/objects") .post with
        requestBody := some ⟨.array (bytes "hello"), none, false⟩ }
      fields := .writeObject .zero }
  response := .init .subclass
  arrives := true

/-- A part that appends to it. -/
def appendPart (source : BodySource) (range : ObjectRange) : Part where
  env := appendEnv
  kind := .updateObject
  request := (AtmosUpdateObjectRequest.init (bytes "0123")).configure
    (.updateObject .zero range) (some ⟨source, none, false⟩)
  response := .init .atmosResponse
  arrives := true

theorem helloPart_isFor :
    helloPart.IsFor appendEnv.openssl ⟨none, bytes "hello", true⟩ where
  openssl_eq := rfl
  content := plain_contentHeaders
  lines := by decide
  range_new := rfl
  checksum_new := rfl
  fields := trivial
  headers req x h := by
    obtain rfl := Option.some.inj h
    rfl
  body := ⟨_, none, false, rfl, .inl ⟨.array, by decide, rfl, .inl ⟨rfl, rfl⟩⟩⟩

theorem appendPart_isFor {source : BodySource} {range : ObjectRange}
    {w : CheckedAppends.Write UInt8}
    (h : source.Holds w.data ∧ w.data ≠ [] ∧ w.arrives = true ∧
        range.PutsAt w.offset w.data.length ∨
      source.GivesUp ∧ w.data = source.fedBytes ∧ w.arrives = false) :
    (appendPart source range).IsFor appendEnv.openssl w where
  openssl_eq := rfl
  content := plain_contentHeaders
  lines _ h := absurd h List.not_mem_nil
  range_new := rfl
  checksum_new := rfl
  fields := trivial
  headers req x h := by
    obtain rfl := Option.some.inj h
    rfl
  body := ⟨source, none, false, rfl, h⟩

/-- The second part is sent from a file, the third is given up, and so the fourth is
refused. -/
theorem upload_session_hello :
    uploadSession appendEnv.openssl .sha1 (bytes "sha1")
        (.init appendEnv.openssl .wschecksum .sha1) []
        [helloPart, appendPart (.file AtmosChecksum.worldFile 6) ⟨5, 10⟩,
          appendPart (.file unseekableFile 6) ⟨11, 16⟩, appendPart (.array (bytes "!")) ⟨11, 11⟩] =
      some ([true, true, false, false], bytes "hello world") := by
  have hopenssl : appendEnv.openssl.Streams := Openssl.replayDigests_streams _
  have hworld : BodySource.Holds (bytes " world") (.file AtmosChecksum.worldFile 6) := by
    refine @BodySource.Holds.file (bytes " world") _ ?_ ?_ rfl rfl
    · decide
    · unfold FileStream.Delivers AtmosChecksum.worldFile
      decide
  have hfed : (BodySource.file unseekableFile 6).fedBytes = bytes " world" := by
    have hdelivers : unseekableFile.Delivers := by
      unfold FileStream.Delivers unseekableFile AtmosChecksum.worldFile
      decide
    rw [BodySource.fedBytes, if_pos (show unseekableFile.tells = true from rfl),
      AtmosChecksum.flatten_filePieces hdelivers (by decide) (by decide)]
    decide
  have hparts : List.Forall₂ (Part.IsFor appendEnv.openssl)
      [helloPart, appendPart (.file AtmosChecksum.worldFile 6) ⟨5, 10⟩,
        appendPart (.file unseekableFile 6) ⟨11, 16⟩, appendPart (.array (bytes "!")) ⟨11, 11⟩]
      [⟨none, bytes "hello", true⟩, ⟨some 5, bytes " world", true⟩,
        ⟨some 11, bytes " world", false⟩, ⟨some 11, bytes "!", true⟩] :=
    .cons helloPart_isFor <|
      .cons (appendPart_isFor (.inl ⟨hworld, by decide, rfl,
        .inr ⟨5, 6, by decide, by decide, 5, by decide, rfl⟩⟩)) <|
      .cons (appendPart_isFor (.inr ⟨.inr rfl, hfed.symm, rfl⟩)) <|
      .cons (appendPart_isFor (.inl ⟨.array, by decide, rfl,
        .inr ⟨11, 1, by decide, by decide, 11, by decide, rfl⟩⟩)) .nil
  have hsession := @upload_session appendEnv.openssl hopenssl (Openssl.replayDigests_finalizes _)
    .sha1 _ rfl rfl _ _ hparts [] (by decide)
  rw [AtmosChecksum.update_nil hopenssl] at hsession
  exact hsession.trans (by decide)

end Atmos
