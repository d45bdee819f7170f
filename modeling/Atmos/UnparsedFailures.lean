import Atmos.ResponseFilters
import Atmos.SignatureCoverage

/-!
# Failed operations

Every filter that parses a response makes its own test for success: one wants
the code 200, one the code 201, and all others only leave out the codes above
299.  The codes below 200 pass these tests, among them 0, which stands for a
request that never got an answer.

* `unparsed_iff` — where the tests find a failure, the fields stay as they were
  initialised exactly when the error filter gets along with the response;
* `earlyReply_parsed` — a code below 200 that they let pass does change a field,
  or reads an absent body;
* `failures_unparsed` — both together.
-/

namespace Atmos

open ByteText FixedMemory FilterChain XmlTree AtmosUtil

/-! ## What a failure leaves -/

/-- The operation returns, and the fields of its response are still those of a
new object. -/
def Operation.Unparsed (env : ReplyEnv) (op : Operation) (call : Call) (reply : Reply) : Prop :=
  ∃ response, call.receive env reply op.response = .ok response ∧ response.data = op.family.data

/-- The error filter gets along with a response: above 399 there is a body, if
only to be logged, and the message of an error is shorter than its field. -/
def ErrorFits (env : ReplyEnv) (method : HttpMethod) (reply : Reply) : Prop :=
  AtmosFilter.After.hasNoBody method = false → 399 < reply.httpCode →
    (AtmosFilter.After.errorDocument env reply).elim
      (reply.fileBody.isSome ∨ reply.body.isSome)
      fun doc => ∀ message, errorMessage env.xml doc = some message →
        message.length < atmosErrorMax

section Errors

variable (env : ReplyEnv) (reply : Reply)

theorem within_map_isOk_iff {α β : Type} (result : Option α) (f : α → β) :
    (∃ b, (within result).map f = .ok b) ↔ result.isSome := by
  simp [map_eq_ok, Option.isSome_iff_exists]

/-- The error filter returns exactly then. -/
theorem parseAtmosError_isOk_iff (method : HttpMethod) {response : Response}
    (hclass : response.parent.isRestResponse = false)
    (hcode : response.parent.httpCode = reply.httpCode) :
    (∃ response', AtmosFilter.After.parseAtmosError env reply method response = .ok response') ↔
      ErrorFits env method reply := by
  unfold AtmosFilter.After.parseAtmosError ErrorFits
  rw [hcode]
  by_cases hmethod : AtmosFilter.After.hasNoBody method = true
  · simp [hmethod]
  · rw [if_neg hmethod]
    rw [Bool.not_eq_true] at hmethod
    by_cases herror : 399 < reply.httpCode
    · rw [if_pos herror]
      simp only [hmethod, herror, forall_const]
      cases AtmosFilter.After.errorDocument env reply with
      | none =>
          rw [Option.elim_none, Option.elim_none]
          split
          · rename_i hbody
            simp [hbody]
          · rename_i hbody
            simp [hbody]
      | some doc =>
          rw [Option.elim_some, Option.elim_some, if_neg (by simp [hclass]),
            within_map_isOk_iff, AtmosResponse.parseError_isSome_iff]
    · simp [herror]

theorem afterErrors_isOk_iff (method : HttpMethod) {response : Response}
    (hclass : response.parent.isRestResponse = false) :
    (∃ response', afterErrors env reply method response = .ok response') ↔
      ErrorFits env method reply :=
  parseAtmosError_isOk_iff env reply method hclass rfl

variable {env reply}

/-- **A failure leaves the fields alone** exactly when the error filter gets
along with the response. -/
theorem unparsed_iff {op : Operation} {call : Call} (h : op.call env.toEnv = some call)
    (hfailed : op.family.failed reply.httpCode = true) :
    op.Unparsed env call reply ↔ ErrorFits env call.request.parent.method reply := by
  unfold Operation.Unparsed
  rw [receive_of_failed env reply h hfailed, ← @afterErrors_isOk_iff env reply _ op.response
    op.response_isRestResponse]
  constructor
  · rintro ⟨response, hresponse, -⟩
    exact ⟨response, hresponse⟩
  · rintro ⟨response, hresponse⟩
    exact ⟨response, hresponse, (afterErrors_eq_ok env reply hresponse).2⟩

end Errors

/-- Every test finds a failure above 299. -/
theorem failed_of_above {httpCode : Int} (h : 299 < httpCode) (family : Operation.Family) :
    family.failed httpCode = true := by
  have habove : aboveSuccess httpCode = true := decide_eq_true h
  have hne : httpCode ≠ 200 ∧ httpCode ≠ 201 := ⟨by omega, by omega⟩
  cases family <;>
    simp [Operation.Family.failed, Operation.Family.filters, RestFilter.failed, habove, hne]

/-! ## Codes below 200 -/

/-- A reply without a body: two entries of metadata, the first with an empty
time, an access control entry and a location. -/
def earlyReply (httpCode : Int) : Reply where
  httpCode := httpCode
  httpStatus := []
  headers :=
    [headerLine atmosHeaderMeta (bytes "atime=,k=v"),
      headerLine atmosHeaderUserAcl (bytes "k=READ"),
      headerLine httpHeaderLocation (bytes "/rest/accesstokens/a")]
  body := none
  contentLength := 0
  fileBody := none

section Early

variable (env : ReplyEnv) (httpCode : Int)

theorem earlyReply_meta :
    env.rest.getHeaderValue (earlyReply httpCode).headers atmosHeaderMeta =
      some (bytes "atime=,k=v") := by
  rw [earlyReply, RestClient.getHeaderValue_cons, nameIs_headerLine (by decide), if_pos (by decide),
    env.rest.headerValue_headerLine (by decide) (by decide)]

theorem earlyReply_userAcl :
    env.rest.getHeaderValue (earlyReply httpCode).headers atmosHeaderUserAcl =
      some (bytes "k=READ") := by
  rw [earlyReply, RestClient.getHeaderValue_cons, nameIs_headerLine (by decide), if_neg (by decide),
    RestClient.getHeaderValue_cons, nameIs_headerLine (by decide), if_pos (by decide),
    env.rest.headerValue_headerLine (by decide) (by decide)]

theorem earlyReply_location :
    env.rest.getHeaderValue (earlyReply httpCode).headers httpHeaderLocation =
      some (bytes "/rest/accesstokens/a") := by
  rw [earlyReply, RestClient.getHeaderValue_cons, nameIs_headerLine (by decide), if_neg (by decide),
    RestClient.getHeaderValue_cons, nameIs_headerLine (by decide), if_neg (by decide),
    RestClient.getHeaderValue_cons, nameIs_headerLine (by decide), if_pos (by decide),
    env.rest.headerValue_headerLine (by decide) (by decide)]

/-- The empty time is written before its buffer. -/
theorem earlyReply_systemMeta (time : TimeLibrary) (curl : Curl) (system : AtmosSystemMetadata) :
    parseSystemMetaHeader time env.rest curl (earlyReply httpCode).headers system = none := by
  rw [parseSystemMetaHeader, earlyReply_meta]
  rfl

/-- The user's entry is stored. -/
theorem earlyReply_userMeta {curl : Curl} {slots : List MetadataSlot} {listableMeta : MetadataArray}
    {arrays : MetadataArray × MetadataArray}
    (h : parseUserMetaHeaders env.rest curl (earlyReply httpCode).headers (slots, 0)
      listableMeta = some arrays) : arrays.1.2 = 1 := by
  obtain ⟨metadata, hmetadata, hrest⟩ := Option.bind_eq_some_iff.mp h
  obtain ⟨listable, -, harrays⟩ := Option.bind_eq_some_iff.mp hrest
  obtain rfl := Option.some.inj harrays
  obtain ⟨-, rfl⟩ := (parseMetaHeader_eq_some env.rest curl _ _ slots _).mp hmetadata
  simp only [metaItems, metaFields, earlyReply_meta, Option.elim_some]
  decide

/-- The access control entry is stored. -/
theorem earlyReply_acl {slots : List AclSlot} {acl : AclArray}
    (h : parseAclHeaders env.rest (earlyReply httpCode).headers (slots, 0) = some acl) :
    acl.2 ≠ 0 := by
  obtain ⟨-, rfl⟩ := (parseAclHeaders_eq env.rest _ slots _).mp h
  simp only [aclItems, aclFields, earlyReply_userAcl, List.length_append]
  have husers : (((bytes "k=READ").splitOn comma).map (aclItem .user)).length = 1 := by decide
  omega

variable {env httpCode} (hxml : env.xml.Documented) (hcode : httpCode ≤ 299)

/-- The first filter that does something on the way back has returned. -/
theorem after_of_filters {family : Operation.Family} {f : RestFilter} {rest : List RestFilter}
    (hfilters : family.filters.filter (·.worksAfter) = f :: rest) {reply : Reply}
    {method : HttpMethod} {start response : Response}
    (h : family.filters.foldlM (fun response f => f.after env reply method response) start =
      .ok response) :
    ∃ middle, f.after env reply method start = .ok middle ∧
      rest.foldlM (fun response f => f.after env reply method response) middle = .ok response := by
  rw [foldlM_filter _ fun f hf r => after_of_not_works env reply method hf r, hfilters,
    List.foldlM_cons] at h
  cases hafter : f.after env reply method start with
  | error fault =>
      rw [hafter] at h
      cases h
  | ok middle =>
      rw [hafter] at h
      exact ⟨middle, rfl, h⟩

include hcode

/-- What a filter that finds no failure made of its fields. -/
theorem parse_of_after {parse : ResponseData → Except Fault ResponseData}
    {parent : AtmosResponse} (hparent : parent.httpCode = httpCode) {data : ResponseData}
    {response : Response} (h : parseUnless aboveSuccess parse ⟨parent, data⟩ = .ok response) :
    parse data = .ok response.data := by
  rw [parseUnless, if_neg (by simp [hparent, aboveSuccess]; omega)] at h
  cases hparse : parse data with
  | error fault =>
      rw [hparse] at h
      cases h
  | ok data' =>
      rw [hparse] at h
      cases h
      rfl

/-- What a family with one filter that does something made of its fields. -/
theorem parse_of_filters {family : Operation.Family} {f : RestFilter}
    (hfilters : family.filters.filter (·.worksAfter) = [f])
    {parse : ResponseData → Except Fault ResponseData} {method : HttpMethod}
    (filter : Response → Except Fault Response)
    (hfilter : f.after env (earlyReply httpCode) method = filter)
    (hparse : filter = parseUnless aboveSuccess parse)
    {parent : AtmosResponse} (hparent : parent.httpCode = httpCode) {response : Response}
    (h : family.filters.foldlM
      (fun response f => f.after env (earlyReply httpCode) method response)
        ⟨parent, family.data⟩ = .ok response) :
    parse family.data = .ok response.data := by
  obtain ⟨middle, hafter, hrest⟩ := after_of_filters hfilters h
  obtain rfl := Except.ok.inj hrest
  rw [hfilter, hparse] at hafter
  exact parse_of_after hcode hparent hafter

include hxml

/-- **A code below 200 that the tests let pass**: some field changes, or the
absent body is read. -/
theorem earlyReply_parsed {family : Operation.Family} (hparses : family.failed httpCode = false)
    (hcreate : httpCode ≠ 200 ∧ httpCode ≠ 201) (method : HttpMethod) {parent : AtmosResponse}
    (hparent : parent.httpCode = httpCode) {response : Response}
    (h : family.filters.foldlM
      (fun response f => f.after env (earlyReply httpCode) method response)
        ⟨parent, family.data⟩ = .ok response) :
    response.data ≠ family.data := by
  intro hdata
  cases family with
  | serviceInformation =>
      simp [Operation.Family.failed, Operation.Family.filters, RestFilter.failed,
        hcreate] at hparses
  | create =>
      simp [Operation.Family.failed, Operation.Family.filters, RestFilter.failed,
        hcreate] at hparses
  | plain | setUserMeta | update =>
      simp [Operation.Family.failed, Operation.Family.filters, RestFilter.failed] at hparses
  | read =>
      have hparse := parse_of_filters hcode rfl
        (AtmosFilter.After.parseReadObjectResponse env _) rfl rfl hparent h
      dsimp only [Operation.Family.data] at hparse
      rw [AtmosReadObjectResponse.parse, earlyReply_systemMeta] at hparse
      cases hparse
  | getUserMeta =>
      have hparse := parse_of_filters hcode rfl
        (AtmosFilter.After.parseGetUserMetaResponse env _) rfl rfl hparent h
      rw [hdata] at hparse
      obtain ⟨arrays, harrays, heq⟩ := map_eq_ok.mp hparse
      have hcount : arrays.1.2 = 1 := earlyReply_userMeta env httpCode (within_eq_ok.mp harrays)
      obtain ⟨hmetadata, -⟩ := ResponseData.getUserMeta.inj heq
      rw [hmetadata] at hcount
      cases hcount
  | getSystemMeta =>
      have hparse := parse_of_filters hcode rfl (AtmosFilter.After.getSystemMetadata env _) rfl rfl
        hparent h
      dsimp only [Operation.Family.data] at hparse
      rw [earlyReply_systemMeta] at hparse
      cases hparse
  | getAcl =>
      have hparse := parse_of_filters hcode rfl
        (AtmosFilter.After.parseGetAclResponse env _) rfl rfl hparent h
      rw [hdata] at hparse
      obtain ⟨acl, hacl, heq⟩ := map_eq_ok.mp hparse
      obtain rfl := ResponseData.getAcl.inj heq
      exact earlyReply_acl env httpCode (within_eq_ok.mp hacl) rfl
  | setAcl =>
      have hparse := parse_of_filters hcode rfl
        (AtmosFilter.After.parseGetAclResponse env _) rfl rfl hparent h
      dsimp only [Operation.Family.data] at hparse
      rw [if_pos (Or.inl (by rw [Reply.getHeaderValue, earlyReply_userAcl]; rfl))] at hparse
      cases hparse
  | objectInfo =>
      have hparse := parse_of_filters hcode rfl
        (AtmosFilter.After.parseGetInfoResponse env _) rfl rfl hparent h
      dsimp only [Operation.Family.data] at hparse
      rw [readBody, earlyReply, hxml.readMemory_null] at hparse
      cases hparse
  | listDirectory =>
      obtain ⟨middle, hafter, -⟩ := after_of_filters rfl h
      change AtmosFilter.After.parseReadObjectResponse env _ _ = _ at hafter
      have hparse := parse_of_after hcode hparent hafter
      dsimp only [Operation.Family.data] at hparse
      rw [AtmosReadObjectResponse.parse, earlyReply_systemMeta] at hparse
      cases hparse
  | listableTags =>
      have hparse := parse_of_filters hcode rfl (AtmosFilter.After.getListableTags env _) rfl rfl
        hparent h
      rw [hdata] at hparse
      dsimp only [Operation.Family.data] at hparse
      obtain ⟨tags, -, heq⟩ := map_eq_ok.mp hparse
      cases heq
  | listObjects =>
      have hparse := parse_of_filters hcode rfl (AtmosFilter.After.listObjects env _) rfl rfl
        hparent h
      dsimp only [Operation.Family.data] at hparse
      rw [readBody, earlyReply, hxml.readMemory_null] at hparse
      cases hparse
  | createVersion =>
      have hparse := parse_of_filters hcode rfl
        (AtmosFilter.After.parseCreateVersionResponse env _) rfl rfl hparent h
      rw [hdata] at hparse
      dsimp only [Operation.Family.data] at hparse
      rw [Reply.getHeaderValue, earlyReply_location, Option.elim_some] at hparse
      obtain ⟨versionId, hcopy, heq⟩ := map_eq_ok.mp hparse
      obtain rfl := ResponseData.createVersion.inj heq
      have hmem := congrArg (fun result => result.toOption.map Block.mem) hcopy
      exact absurd hmem (by decide)
  | listVersions =>
      have hparse := parse_of_filters hcode rfl (AtmosFilter.After.listVersions env _) rfl rfl
        hparent h
      dsimp only [Operation.Family.data] at hparse
      rw [readBody, earlyReply, hxml.readMemory_null] at hparse
      cases hparse
  | createAccessToken =>
      have hparse := parse_of_filters hcode rfl (AtmosFilter.After.createAccessToken env _) rfl rfl
        hparent h
      rw [hdata] at hparse
      dsimp only [Operation.Family.data] at hparse
      rw [Reply.getHeaderValue, earlyReply_location, Option.elim_some, if_pos (by decide)] at hparse
      have hmem := congrArg Block.mem (ResponseData.createAccessToken.inj (Except.ok.inj hparse))
      exact absurd (congrArg List.head? hmem) (by decide)
  | listAccessTokens =>
      have hparse := parse_of_filters hcode rfl
        (AtmosFilter.After.parseListAccessTokensResponse env _) rfl rfl hparent h
      cases hparse
  | accessTokenInfo =>
      have hparse := parse_of_filters hcode rfl
        (AtmosFilter.After.parseGetTokenInfoResponse env _) rfl rfl hparent h
      cases hparse

end Early

/-- **Which failures are not parsed.**  Where the tests of an operation find a
failure, the fields stay as they were initialised exactly when the error filter
gets along with the response; for every other code there is a response with
which it would, and which the operation parses. -/
theorem failures_unparsed {env : ReplyEnv} (hxml : env.xml.Documented) {op : Operation}
    {call : Call} (hcall : op.call env.toEnv = some call) {httpCode : Int}
    (hcode : ¬ (200 ≤ httpCode ∧ httpCode ≤ 299)) :
    (op.family.failed httpCode = true → ∀ reply : Reply, reply.httpCode = httpCode →
      (op.Unparsed env call reply ↔ ErrorFits env call.request.parent.method reply)) ∧
    (op.family.failed httpCode = false → ∃ reply : Reply, reply.httpCode = httpCode ∧
      ErrorFits env call.request.parent.method reply ∧ ¬ op.Unparsed env call reply) := by
  constructor
  · rintro hfailed reply rfl
    exact unparsed_iff hcall hfailed
  · intro hparses
    have hearly : httpCode ≤ 299 := by
      by_contra hlate
      rw [Int.not_le] at hlate
      rw [failed_of_above hlate] at hparses
      cases hparses
    have hfits : ErrorFits env call.request.parent.method (earlyReply httpCode) := by
      intro _ herror
      have hle : (earlyReply httpCode).httpCode = httpCode := rfl
      omega
    refine ⟨earlyReply httpCode, rfl, hfits, ?_⟩
    rintro ⟨response, hreceive, hdata⟩
    rw [receive_eq env _ hcall] at hreceive
    obtain ⟨middle, hmiddle⟩ := (@afterErrors_isOk_iff env _ _ op.response
      op.response_isRestResponse).mpr hfits
    obtain ⟨hcode', hdata'⟩ := afterErrors_eq_ok env _ hmiddle
    rw [hmiddle] at hreceive
    obtain ⟨parent, data⟩ := middle
    obtain rfl : data = op.family.data := hdata'
    exact earlyReply_parsed hxml hearly hparses ⟨by omega, by omega⟩ _ hcode' hreceive hdata

/-- A client that finds no document in an answer. -/
def blindEnv : ReplyEnv where
  toEnv := readerEnv
  time := .greenwich
  xml := .blind

/-- The listing of all access tokens. -/
def tokenListing : Operation := .listAccessTokens AtmosListAccessTokensRequest.init

/-- What is left of an answer that never came. -/
def lostReply : Reply where
  httpCode := 0
  httpStatus := []
  headers := []
  body := none
  contentLength := 0
  fileBody := none

/-- The document of an error. -/
def notFoundBody : List UInt8 :=
  bytes "<Error><Code>1003</Code><Message>There is no such object.</Message></Error>"

/-- An answer with this document. -/
def notFoundReply : Reply where
  httpCode := 404
  httpStatus := bytes "Not Found"
  headers := []
  body := some notFoundBody
  contentLength := 75
  fileBody := none

/-- A client that knows it. -/
def notFoundEnv : ReplyEnv :=
  { blindEnv with
    xml := .ofDocuments [(notFoundBody, bytes "Error",
      [.textElement (bytes "Code") (bytes "1003"),
        .textElement (bytes "Message") (bytes "There is no such object.")])] }

theorem errorFits_notFound : ErrorFits notFoundEnv .get notFoundReply := by
  intro _ _
  have hread : (AtmosFilter.After.errorDocument notFoundEnv notFoundReply).map
      (errorMessage notFoundEnv.xml) = some (some (bytes "There is no such object.")) := by
    decide +kernel
  obtain ⟨doc, hdoc, hmessage⟩ := Option.map_eq_some_iff.mp hread
  rw [hdoc]
  intro message htext
  obtain rfl := Option.some.inj (hmessage.symm.trans htext)
  decide

/-- The message of an error is stored, and nothing else. -/
theorem failures_unparsed_tokens :
    (tokenListing.Unparsed notFoundEnv (AtmosClient.listAccessTokens
        AtmosListAccessTokensRequest.init) notFoundReply ∧
      ∃ response, (AtmosClient.listAccessTokens AtmosListAccessTokensRequest.init).receive
          notFoundEnv notFoundReply tokenListing.response = .ok response ∧
        response.parent.atmosError = 1003) ∧
    ∃ reply : Reply, reply.httpCode = 0 ∧ ErrorFits notFoundEnv .get reply ∧
      ¬ tokenListing.Unparsed notFoundEnv (AtmosClient.listAccessTokens
          AtmosListAccessTokensRequest.init) reply := by
  have hxml : notFoundEnv.xml.Documented := LibxmlReader.ofDocuments_documented _
  have hcall : tokenListing.call notFoundEnv.toEnv =
      some (AtmosClient.listAccessTokens AtmosListAccessTokensRequest.init) := rfl
  have hnotFound : ¬ ((200 : Int) ≤ 404 ∧ (404 : Int) ≤ 299) := by decide
  have hlost : ¬ ((200 : Int) ≤ 0 ∧ (0 : Int) ≤ 299) := by decide
  refine ⟨⟨?_, _, rfl, ?_⟩, (failures_unparsed hxml hcall hlost).2 rfl⟩
  · exact ((failures_unparsed hxml hcall hnotFound).1 rfl notFoundReply rfl).mpr errorFits_notFound
  · decide

/-- The text of an absent body is measured. -/
theorem lost_tokens_measured :
    (AtmosClient.listAccessTokens AtmosListAccessTokensRequest.init).receive blindEnv lostReply
        tokenListing.response = .error .nullText ∧
      ¬ tokenListing.Unparsed blindEnv (AtmosClient.listAccessTokens
          AtmosListAccessTokensRequest.init) lostReply := by
  have hreceive : (AtmosClient.listAccessTokens AtmosListAccessTokensRequest.init).receive blindEnv
      lostReply tokenListing.response = .error .nullText := rfl
  refine ⟨hreceive, ?_⟩
  rintro ⟨response, hresponse, -⟩
  rw [hreceive] at hresponse
  cases hresponse

end Atmos
