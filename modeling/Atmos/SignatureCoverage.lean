import Atmos.ConfiguredHeaders

/-!
# Nothing is added after signing

The default filters come last in every chain.  They add the date and the
`uid`, let the REST client add the content headers, sign what is there and send
it with the signature.

* `run_defaultFilters` — what the default filters do to a request;
* `operation_ownFilters` — every operation puts filters of its own in front of
  them, and no second default filter;
* `execute_signed` — a call that is not ended by a filter signs and sends its
  request once;
* `operation_sends_signed` — what is sent is what was signed, and the
  signature;
* `execute_sent` — the URI and the header lines of what is sent.
-/

namespace Atmos

open ByteText FixedMemory FilterChain

/-! ## The default filters -/

/-- The line of `AtmosFilter_add_date`. -/
def dateLine (env : Env) : CStr := httpHeaderDate ++ colon :: AtmosUtil.getDate env.now

/-- The line of `AtmosFilter_add_uid`.  Its buffer may cut the `uid`. -/
def uidLine (env : Env) : CStr :=
  atmosHeaderUid ++ colon :: env.atmos.uid.take (atmosSimpleHeaderMax - 11)

/-- The line of `AtmosFilter_sign_request`. -/
def signatureLine (env : Env) (hashString : CStr) : CStr :=
  atmosHeaderSignature ++ colon :: env.atmos.sign env.openssl hashString

/-- A request with the lines of the default filters that run before it is
signed. -/
def requestToSign (env : Env) (request : RestRequest) : RestRequest :=
  let dated := (request.addHeader (dateLine env)).addHeader (uidLine env)
  { dated with headers := dated.headers ++ env.rest.contentHeaders dated }

/-- The exchange after the default filters. -/
def Exchange.signedAndSent (env : Env) (x : Exchange) (hashString : CStr) : Exchange :=
  let signed := requestToSign env x.request.parent
  let sent := signed.addHeader (signatureLine env hashString)
  { x.setParent sent with trace := x.trace ++ [.signed signed hashString, .sent sent] }

theorem addDate_eq (env : Env) (x : Exchange) :
    AtmosFilter.addDate env x = some (.next (x.addHeader (dateLine env))) := by
  have hline : httpHeaderDate ++ [colon] ++ AtmosUtil.getDate env.now = dateLine env := by
    rw [dateLine, List.append_assoc, List.singleton_append]
  have hlength : (dateLine env).length = 34 := by
    rw [dateLine, List.length_append, List.length_cons, length_getDate]
    rfl
  have hsize : atmosSimpleHeaderMax = 255 := rfl
  rw [AtmosFilter.addDate, hline, snprintf_of_length_lt (by omega)]

theorem addUid_eq (env : Env) (x : Exchange) :
    AtmosFilter.addUid env x = some (.next (x.addHeader (uidLine env))) := by
  have hname : (atmosHeaderUid ++ [colon]).length = 10 := rfl
  have hline : snprintf atmosSimpleHeaderMax (atmosHeaderUid ++ [colon] ++ env.atmos.uid) =
      uidLine env := by
    rw [snprintf, List.take_append, hname, uidLine]
    rfl
  rw [AtmosFilter.addUid, hline]

theorem setContentHeaders_eq (env : Env) (x : Exchange) :
    AtmosFilter.setContentHeaders env x =
      some (.next (x.addHeaders (env.rest.contentHeaders x.request.parent))) :=
  rfl

theorem signRequest_eq (env : Env) (x : Exchange) :
    AtmosFilter.signRequest env x =
      (AtmosClient.canonicalizeRequest env.rest x.request.parent).map fun hashString =>
        .next { x.addHeader (signatureLine env hashString) with
          trace := x.trace ++ [.signed x.request.parent hashString] } := by
  unfold AtmosFilter.signRequest
  cases hhash : AtmosClient.canonicalizeRequest env.rest x.request.parent with
  | none => rfl
  | some hashString =>
      have hline : atmosHeaderSignature ++ [colon] ++ env.atmos.sign env.openssl hashString =
          signatureLine env hashString := by
        rw [signatureLine, List.append_assoc]
        rfl
      have hlength : (signatureLine env hashString).length = 44 := by
        rw [signatureLine, List.length_append, List.length_cons, AtmosClient.length_sign]
        rfl
      have hsize : atmosSimpleHeaderMax = 255 := rfl
      dsimp only [Option.bind_eq_bind, Option.bind_some, Option.map_some]
      rw [hline, snprintf_of_length_lt (by omega)]
      rfl

/-- **The default filters** sign the request with all its headers and send it
with the signature.  They fail where there is no string to sign. -/
theorem run_defaultFilters (env : Env) (x : Exchange) :
    run ((AtmosClient.addDefaultFilters []).map (RestFilter.before env)) x =
      (AtmosClient.canonicalizeRequest env.rest
        (requestToSign env x.request.parent)).map fun hashString =>
          .next (x.signedAndSent env hashString) := by
  have hchain : (AtmosClient.addDefaultFilters []).map (RestFilter.before env) =
      [AtmosFilter.passOn, AtmosFilter.addDate env, AtmosFilter.addUid env,
        AtmosFilter.setContentHeaders env, AtmosFilter.signRequest env,
        AtmosFilter.executeCurlRequest] := rfl
  have hrequest : (((x.addHeader (dateLine env)).addHeader (uidLine env)).addHeaders
      (env.rest.contentHeaders ((x.addHeader (dateLine env)).addHeader
        (uidLine env)).request.parent)).request.parent =
      requestToSign env x.request.parent := rfl
  simp only [hchain, run, AtmosFilter.passOn, addDate_eq, addUid_eq, setContentHeaders_eq,
    signRequest_eq, hrequest]
  cases AtmosClient.canonicalizeRequest env.rest (requestToSign env x.request.parent) with
  | none => rfl
  | some hashString =>
      rw [Option.map_some, Option.map_some, Exchange.signedAndSent, List.append_cons x.trace]
      rfl

/-! ## Chains of operations -/

/-- A call that puts filters of its own in front of the default ones. -/
def HasOwnFilters (call : Call) : Prop :=
  ∃ request filters, call = AtmosClient.call request filters ∧
    ∀ f ∈ filters, f.isDefault = false

theorem hasOwnFilters_call (request : AtmosRequest) {filters : List RestFilter}
    (hown : ∀ f ∈ filters, f.isDefault = false) :
    HasOwnFilters (AtmosClient.call request filters) :=
  ⟨request, filters, rfl, hown⟩

theorem hasOwnFilters_of_map {request : Option AtmosRequest} {make : AtmosRequest → Call}
    {call : Call} (hown : ∀ request, HasOwnFilters (make request))
    (h : request.map make = some call) : HasOwnFilters call := by
  obtain ⟨request, -, rfl⟩ := Option.map_eq_some_iff.mp h
  exact hown request

theorem hasOwnFilters_setAcl {acl : List AtmosAclEntry} {request : RestRequest} {call : Call}
    (finish : RestRequest → RestRequest)
    (h : (AtmosClient.setAclHeaders acl request).bind (fun request => some
      (AtmosClient.call (AtmosClient.restRequest (finish request)) [.parseGetAclResponse])) =
        some call) : HasOwnFilters call := by
  obtain ⟨request, -, h⟩ := Option.bind_eq_some_iff.mp h
  cases h
  exact hasOwnFilters_call _ (by decide)

/-- **Every operation** puts filters of its own in front of the default
ones. -/
theorem operation_ownFilters {env : Env} {op : Operation} {call : Call}
    (h : op.call env = some call) : HasOwnFilters call := by
  have hcreate : ∀ request, HasOwnFilters (AtmosClient.createObject request) := fun request =>
    hasOwnFilters_call request (by decide)
  have hread : ∀ request, HasOwnFilters (AtmosClient.readObject request) := fun request =>
    hasOwnFilters_call request (by decide)
  have hupdate : ∀ request, HasOwnFilters (AtmosClient.updateObject request) := fun request =>
    hasOwnFilters_call request (by decide)
  cases op with
  | createObjectSimpleNs path data contentType =>
      exact hasOwnFilters_of_map (fun _ => hcreate _) h
  | createObjectFileNs path f contentLength contentType =>
      exact hasOwnFilters_of_map (fun _ => hcreate _) h
  | readObjectSimpleNs path => exact hasOwnFilters_of_map hread h
  | headObjectNs path => exact hasOwnFilters_of_map hread h
  | updateObjectSimpleNs path data contentType =>
      exact hasOwnFilters_of_map (fun _ => hupdate _) h
  | updateObjectFileNs path f contentLength contentType =>
      exact hasOwnFilters_of_map (fun _ => hupdate _) h
  | getUserMetaSimpleNs path =>
      exact hasOwnFilters_of_map (fun request => hasOwnFilters_call request (by decide)) h
  | getSystemMetaSimpleNs path =>
      exact hasOwnFilters_of_map (fun request => hasOwnFilters_call request (by decide)) h
  | setAcl objectId acl => exact hasOwnFilters_setAcl id h
  | setAclNs path acl => exact hasOwnFilters_setAcl id h
  | setAclKeypool pool key acl =>
      exact hasOwnFilters_setAcl (fun request => request.addHeader (poolHeader pool)) h
  | _ =>
      cases h
      exact hasOwnFilters_call _ (by decide)

/-- A call that is not ended by a filter runs its own filters and then the
default ones. -/
theorem execute_call_eq_next {env : Env} {request : AtmosRequest} {filters : List RestFilter}
    {response : AtmosResponse} {x : Exchange} :
    (AtmosClient.call request filters).execute env response = some (.next x) ↔
      ∃ y hashString,
        run (filters.reverse.map (RestFilter.before env)) { request, response, trace := [] } =
          some (.next y) ∧
        AtmosClient.canonicalizeRequest env.rest (requestToSign env y.request.parent) =
          some hashString ∧
        x = y.signedAndSent env hashString := by
  rw [Call.execute, RestClient.executeRequest, AtmosClient.call, foldl_add, List.map_append,
    run_append_eq_next]
  constructor
  · intro ⟨y, hown, hdefault⟩
    rw [run_defaultFilters] at hdefault
    obtain ⟨hashString, hhash, h⟩ := Option.map_eq_some_iff.mp hdefault
    cases h
    exact ⟨y, hashString, hown, hhash, rfl⟩
  · intro ⟨y, hashString, hown, hhash, hx⟩
    refine ⟨y, hown, ?_⟩
    rw [run_defaultFilters, hhash, hx]
    rfl

/-- The default filters add the date, the `uid` and some lines that are not
signed. -/
theorem requestToSign_headers (env : Env) (request : RestRequest) :
    ∃ content, (∀ line ∈ content, colon ∈ line ∧ ¬ IsEmcHeader line) ∧
      (requestToSign env request).headers =
        request.headers ++ [dateLine env, uidLine env] ++ content := by
  let dated := (request.addHeader (dateLine env)).addHeader (uidLine env)
  refine ⟨env.rest.contentHeaders dated, env.rest.contentHeaders_line dated, ?_⟩
  rw [List.append_cons request.headers]
  rfl

/-- All their lines have a colon. -/
theorem colon_mem_requestToSign {env : Env} {request : RestRequest}
    (h : ∀ line ∈ request.headers, colon ∈ line) :
    ∀ line ∈ (requestToSign env request).headers, colon ∈ line := by
  obtain ⟨content, hcontent, hheaders⟩ := requestToSign_headers env request
  have hline : ∀ name value : CStr, colon ∈ name ++ colon :: value := fun name value =>
    List.mem_append_right name (List.mem_cons_self ..)
  rw [hheaders]
  intro line hmem
  rcases List.mem_append.mp hmem with hmem | hmem
  · rcases List.mem_append.mp hmem with hmem | hmem
    · exact h line hmem
    · rcases List.mem_pair.mp hmem with rfl | rfl
      · exact hline ..
      · exact hline ..
  · exact (hcontent line hmem).1

/-- A call sends its request if its own filters pass it on and all header lines
have a colon. -/
theorem execute_call_completes {env : Env} {request : AtmosRequest}
    {filters : List RestFilter} {response : AtmosResponse} {y : Exchange}
    (hrun : run (filters.reverse.map (RestFilter.before env))
      { request, response, trace := [] } = some (.next y))
    (hcolon : ∀ line ∈ y.headers, colon ∈ line) :
    ∃ x, (AtmosClient.call request filters).execute env response = some (.next x) := by
  have hsome := (canonicalizeRequest_isSome env.rest _).mpr
    (@colon_mem_requestToSign env y.request.parent hcolon)
  obtain ⟨hashString, hhash⟩ := Option.isSome_iff_exists.mp hsome
  exact ⟨_, execute_call_eq_next.mpr ⟨y, hashString, hrun, hhash, rfl⟩⟩

/-! ## Coverage -/

/-- A call that is not ended by a filter signs and sends its request once: the
request it started with, the headers of its own filters and those of the
default filters. -/
theorem execute_signed {env : Env} {call : Call} {response : AtmosResponse} {x : Exchange}
    (hown : HasOwnFilters call) (h : call.execute env response = some (.next x)) :
    ∃ y hashString,
      AppendsFilterHeaders { request := call.request, response, trace := [] } y ∧
      AtmosClient.canonicalizeRequest env.rest (requestToSign env y.request.parent) =
        some hashString ∧
      x = y.signedAndSent env hashString := by
  obtain ⟨request, filters, rfl, hfilters⟩ := hown
  obtain ⟨y, hashString, hrun, hhash, hx⟩ := execute_call_eq_next.mp h
  refine ⟨y, hashString, ?_, hhash, hx⟩
  apply run_operationFilters ?_ hrun
  intro f hf
  exact hfilters f (List.mem_reverse.mp hf)

/-- **Signature coverage.**  What an operation sends is the request it signed,
with one more header line: the signature of the string that was signed. -/
theorem operation_sends_signed {env : Env} {op : Operation} {call : Call}
    {response : AtmosResponse} {x : Exchange} (hcall : op.call env = some call)
    (h : call.execute env response = some (.next x)) :
    ∃ signed hashString,
      AtmosClient.canonicalizeRequest env.rest signed = some hashString ∧
      x.trace = [.signed signed hashString,
        .sent (signed.addHeader
          (bytes "x-emc-signature:" ++ env.atmos.sign env.openssl hashString))] := by
  obtain ⟨y, hashString, ⟨headers, -, happends⟩, hhash, rfl⟩ :=
    execute_signed (operation_ownFilters hcall) h
  have htrace : y.trace = [] := happends.trace
  refine ⟨_, hashString, hhash, ?_⟩
  rw [Exchange.signedAndSent, htrace]
  rfl

/-- What is sent carries the signature of what was signed. -/
theorem sent_eq_of_mem {env : Env} {y : Exchange} {hashString : CStr} {sent : RestRequest}
    (htrace : y.trace = []) (hsent : Event.sent sent ∈ (y.signedAndSent env hashString).trace) :
    sent = (requestToSign env y.request.parent).addHeader (signatureLine env hashString) := by
  rw [Exchange.signedAndSent, htrace] at hsent
  rcases List.mem_cons.mp hsent with heq | hsent
  · cases heq
  · cases List.mem_singleton.mp hsent
    rfl

/-- Under an `x-emc` name that is not the signature's, the default filters add
the `uid` only. -/
theorem linesNamed_sent {env : Env} {request : AtmosRequest} {filters : List RestFilter}
    {response : AtmosResponse} {x : Exchange} {sent : RestRequest} {name : CStr}
    (hemc : emcPrefix <+: ByteText.lowercase name)
    (hne : ByteText.lowercase atmosHeaderSignature ≠ ByteText.lowercase name)
    (hfilters : ∀ f ∈ filters, f.isDefault = false)
    (h : (AtmosClient.call request filters).execute env response = some (.next x))
    (hsent : Event.sent sent ∈ x.trace) :
    ∃ y, run (filters.reverse.map (RestFilter.before env))
        { request, response, trace := [] } = some (.next y) ∧
      AppendsFilterHeaders { request, response, trace := [] } y ∧
      linesNamed name sent.headers =
        linesNamed name y.headers ++ linesNamed name [uidLine env] := by
  obtain ⟨y, hashString, hrun, -, rfl⟩ := execute_call_eq_next.mp h
  have hown := run_operationFilters
    (fun f hf => hfilters f (List.mem_reverse.mp hf)) hrun
  refine ⟨y, hrun, hown, ?_⟩
  obtain ⟨headers, -, happends⟩ := hown
  obtain ⟨content, hcontent, hheaders⟩ := requestToSign_headers env y.request.parent
  have hnone : ∀ lines : List CStr, (∀ line ∈ lines, ¬ IsEmcHeader line) →
      linesNamed name lines = [] := by
    intro lines hlines
    apply List.filter_eq_nil_iff.mpr
    intro line hmem hname
    exact hlines line hmem (isEmcHeader_of_nameIs hemc hname)
  have hdate : linesNamed name [dateLine env] = [] := by
    apply hnone
    intro line hmem
    rw [List.mem_singleton.mp hmem, dateLine, isEmcHeader_line]
    decide
  have hsignature : linesNamed name [signatureLine env hashString] = [] :=
    linesNamed_other (by decide) hne _
  rw [sent_eq_of_mem happends.trace hsent, RestRequest.addHeader_headers, hheaders,
    ← List.singleton_append, linesNamed_append, linesNamed_append, linesNamed_append,
    linesNamed_append, hdate, hnone content fun line hmem => (hcontent line hmem).2,
    hsignature, List.append_nil, List.append_nil, List.nil_append]

/-- What is sent for a request: its own headers, those of the filters of the
operation, those of the default filters, and the signature. -/
structure SentFor (env : Env) (request sent : RestRequest) : Prop where
  uri : sent.uri = request.uri
  headers : ∃ (own : List Header) (content : List CStr) (hashString : CStr),
    (∀ h ∈ own, h.name ∈ filterHeaderNames) ∧
    (∀ line ∈ content, ¬ IsEmcHeader line) ∧
    sent.headers = request.headers ++ own.map Header.line ++ [dateLine env, uidLine env] ++
      content ++ [signatureLine env hashString]

/-- Something is sent. -/
theorem execute_sends {env : Env} {call : Call} {response : AtmosResponse} {x : Exchange}
    (hown : HasOwnFilters call) (h : call.execute env response = some (.next x)) :
    ∃ sent, Event.sent sent ∈ x.trace := by
  obtain ⟨y, hashString, -, -, rfl⟩ := execute_signed hown h
  exact ⟨_, List.mem_append_right _ (List.mem_cons_of_mem _ (List.mem_singleton_self _))⟩

/-- A call whose own filters succeed comes to its end with a request sent. -/
theorem execute_call_sends {env : Env} {request : AtmosRequest} {filters : List RestFilter}
    {response : AtmosResponse} {y : Exchange} (hown : ∀ f ∈ filters, f.isDefault = false)
    (hrun : run (filters.reverse.map (RestFilter.before env))
      { request, response, trace := [] } = some (.next y))
    (hcolon : ∀ line ∈ y.headers, colon ∈ line) :
    ∃ x sent, (AtmosClient.call request filters).execute env response = some (.next x) ∧
      Event.sent sent ∈ x.trace := by
  obtain ⟨x, hexecute⟩ := execute_call_completes hrun hcolon
  obtain ⟨sent, hsent⟩ := execute_sends (hasOwnFilters_call request hown) hexecute
  exact ⟨x, sent, hexecute, hsent⟩

theorem execute_sent {env : Env} {call : Call} {response : AtmosResponse} {x : Exchange}
    (hown : HasOwnFilters call) (h : call.execute env response = some (.next x))
    {sent : RestRequest} (hsent : Event.sent sent ∈ x.trace) :
    SentFor env call.request.parent sent := by
  obtain ⟨y, hashString, ⟨own, hnames, happends⟩, -, rfl⟩ := execute_signed hown h
  obtain ⟨content, hcontent, hheaders⟩ := requestToSign_headers env y.request.parent
  have hown : y.request.parent.headers = _ := happends.headers
  rw [sent_eq_of_mem happends.trace hsent]
  refine ⟨happends.uri, own, content, hashString, hnames, ?_, ?_⟩
  · intro line hline
    exact (hcontent line hline).2
  · rw [RestRequest.addHeader_headers, hheaders, hown]

/-- A client with a subtenant user. -/
def readerClient : AtmosClient where
  host := bytes "https://storage.example"
  port := 443
  uid := bytes "0123abcd/reader"
  secret := bytes "LJLuryj6zs8ste6Y3jTGQp71xq0="
  enableUtf8Metadata := true

/-- The bytes of its secret. -/
def readerKey : List UInt8 :=
  [44, 146, 238, 175, 40, 250, 206, 207, 44, 181, 238, 152, 222, 52, 198, 66, 158, 245, 198, 173]

/-- `Fri, 06 Mar 2026 09:15:30 GMT` -/
def readerTime : Tm where
  tmSec := 30
  tmMin := 15
  tmHour := 9
  tmMday := 6
  tmMon := 2
  year := 2026
  tmWday := 5

/-- One second later. -/
def laterTime : Tm := { readerTime with tmSec := 31 }

/-- A signature it made. -/
def readerRecording (text : CStr) (digest : List UInt8) (signature : CStr) : Recording where
  secret := readerClient.secret
  key := readerKey
  text := text
  digest := digest
  signature := signature

/-- The string that is signed for its listing. -/
def docsListingText : CStr :=
  bytes ("GET\n\n\nFri, 06 Mar 2026 09:15:30 GMT\n/rest/namespace/docs/\n" ++
    "x-emc-include-meta:true\nx-emc-limit:5\nx-emc-token:p2\n" ++
    "x-emc-uid:0123abcd/reader\nx-emc-user-tags:farbe\nx-emc-utf8:true")

def readerEnv : Env where
  rest := .plain
  curl := .standard
  openssl := .replay [readerRecording docsListingText
    [222, 64, 202, 176, 233, 168, 62, 49, 137, 226, 89, 57, 46, 170, 208, 252, 191, 150, 122, 245]
    (bytes "3kDKsOmoPjGJ4lk5LqrQ/L+WevU=")]
  atmos := readerClient
  now := readerTime

/-- A new listing of a directory. -/
def docsRequest : AtmosRequest := (AtmosListDirectoryRequest.init (bytes "/docs/")).get (by decide)

/-- The token of its second page. -/
def docsToken : CStr := bytes "p2"

theorem length_docsToken : docsToken.length < atmosTokenMax := by
  decide

/-- The listing from that token on, with one tag. -/
def docsListing : AtmosRequest :=
  { docsRequest with
    fields := .listDirectory { limit := 5, token := docsToken, token_length := length_docsToken }
      { includeMeta := true, userTags := [bytes "farbe"], systemTags := [] } }

/-- What its own filters add to it. -/
def docsListingLines : List CStr :=
  [bytes "x-emc-token: p2", bytes "x-emc-limit: 5", bytes "x-emc-utf8: true",
    bytes "x-emc-include-meta: true", bytes "x-emc-user-tags: farbe"]

theorem execute_docsListing :
    ∃ x, (AtmosClient.listDirectory docsListing).execute readerEnv (AtmosResponse.init .subclass) =
      some (.next x) := by
  let x : Exchange := { request := docsListing, response := .init .subclass, trace := [] }
  have hrun : run ([.setPaginationHeaders, .listDirectory, .parseReadObjectResponse].map
      (RestFilter.before readerEnv)) x = some (.next (x.addHeaders docsListingLines)) := by
    decide +kernel
  exact execute_call_completes hrun (by decide)

theorem operation_sends_signed_docs :
    ∃ x, (AtmosClient.listDirectory docsListing).execute readerEnv (AtmosResponse.init .subclass) =
        some (.next x) ∧
      ∃ signed hashString,
        AtmosClient.canonicalizeRequest readerEnv.rest signed = some hashString ∧
        x.trace = [.signed signed hashString,
          .sent (signed.addHeader (bytes "x-emc-signature:" ++
            readerEnv.atmos.sign readerEnv.openssl hashString))] := by
  obtain ⟨x, hx⟩ := execute_docsListing
  exact ⟨x, hx, @operation_sends_signed readerEnv (.listDirectory docsListing) _ _ x rfl hx⟩

example : AtmosClient.canonicalizeRequest readerEnv.rest (requestToSign readerEnv
    { docsListing.parent with headers := docsListingLines }) = some docsListingText := by
  decide +kernel

end Atmos
