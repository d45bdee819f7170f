import Atmos.ClientOperations
import Atmos.ResponseBodies

/-!
# Filters on the way back

When the next filter has returned, a filter works on the response.  The last one
stores what the server answered, the next to last parses the errors, and the
filters of the operation parse what it asked for.  Each of these makes its own
test of `http_code` first, and casts the response to the class it expects.

* `Response` — an `AtmosResponse` with the fields of its class;
* `RestFilter.after` — what a filter does on the way back;
* `Call.receive` — the way back through the chain of a call;
* `receive_of_failed` — if no filter of the operation finds a success, only the
  errors are parsed.
-/

namespace Atmos

open ByteText FixedMemory FilterChain XmlTree AtmosUtil

/-! ## Responses -/

/-- Where C does not define what happens next: a write outside a field or an
array, a NULL pointer that is read as a text, or a field the object does not
have. -/
inductive Fault where
  | overflow
  | nullText
  | foreignField
  deriving DecidableEq, Repr

/-- The result of a parser that has none where a write leaves its field. -/
def within {α : Type} (result : Option α) : Except Fault α := result.elim (.error .overflow) .ok

@[simp] theorem within_eq_ok {α : Type} {result : Option α} {a : α} :
    within result = .ok a ↔ result = some a := by
  cases result with
  | none => simp [within]
  | some a' => simp [within]

theorem map_eq_ok {α β : Type} {result : Except Fault α} {f : α → β} {b : β} :
    result.map f = .ok b ↔ ∃ a, result = .ok a ∧ f a = b := by
  cases result with
  | error fault => simp [Except.map]
  | ok a => simp [Except.map]

/-- A result made into another by an injective function, with what holds of it. -/
theorem exists_map_eq_ok {α β : Type} {result : Except Fault α} {f : α → β}
    (hf : Function.Injective f) {holds : α → Prop} :
    (∃ a, result.map f = .ok (f a) ∧ holds a) ↔ ∃ a, result = .ok a ∧ holds a := by
  constructor
  · intro h
    obtain ⟨a, heq, ha⟩ := h
    obtain ⟨a', hresult, hsame⟩ := map_eq_ok.mp heq
    exact ⟨a, hf hsame ▸ hresult, ha⟩
  · intro h
    obtain ⟨a, hresult, ha⟩ := h
    exact ⟨a, map_eq_ok.mpr ⟨a, hresult, rfl⟩, ha⟩

/-- What the filters take from their surroundings on the way back. -/
structure ReplyEnv extends Env where
  time : TimeLibrary
  xml : LibxmlReader

/-- What `RestFilter_execute_curl_request` gets: the body is in memory or, where
the application asked for it, in a file, given as the bytes from
`file_body_start_pos` on.  A request that fails below HTTP has the code 0. -/
structure Reply where
  httpCode : Int
  httpStatus : CStr
  headers : List CStr
  body : Option (List UInt8)
  contentLength : Int64
  fileBody : Option (List UInt8)

/-- `AtmosReadObjectResponse`, its own fields. -/
structure AtmosReadObjectResponse where
  arrays : ResponseArrays
  systemMetadata : AtmosSystemMetadata

/-- The fields a class adds to `AtmosResponse`.  A token points into the headers;
a list or an information of tokens is given by the element it was bound to. -/
inductive ResponseData where
  | atmosResponse
  | serviceInfo (self : AtmosServiceInfoResponse)
  | createObject (objectId : Block atmosOidLength)
  | readObject (self : AtmosReadObjectResponse)
  | getUserMeta (metadata listableMeta : MetadataArray)
  | getSystemMeta (systemMetadata : AtmosSystemMetadata)
  | getAcl (acl : AclArray)
  | getObjectInfo (self : AtmosGetObjectInfoResponse)
  | listDirectory (parent : AtmosReadObjectResponse) (token : Option CStr)
      (entries : List AtmosDirectoryEntry)
  | getListableTags (token : Option CStr) (tags : Option (List CStr))
  | listObjects (token : Option CStr) (results : List AtmosObjectListing)
  | createVersion (versionId : Block atmosOidLength)
  | listVersions (token : Option CStr) (versions : List AtmosVersion)
  | createAccessToken (tokenId : Block atmosSimpleHeaderMax)
  | listAccessTokens (token : Option CStr) (tokenList : Option (CStr × List Node))
  | getAccessTokenInfo (tokenInfo : Option (CStr × List Node))

/-- A response object. -/
structure Response where
  parent : AtmosResponse
  data : ResponseData

/-- Responses of one parent differ if their data do. -/
theorem Response.injective {α : Type} {data : α → ResponseData} (hdata : Function.Injective data)
    (parent : AtmosResponse) :
    Function.Injective fun a => ({ parent, data := data a } : Response) :=
  fun _ _ h => hdata (Response.mk.inj h).2

/-! ## Parsers -/

/-- A filter that parses the response unless its test finds a failure. -/
def parseUnless (failed : Int → Bool) (parse : ResponseData → Except Fault ResponseData)
    (response : Response) : Except Fault Response :=
  if failed response.parent.httpCode then .ok response
  else (parse response.data).map fun data => { response with data }

/-- The test most filters make. -/
def aboveSuccess (httpCode : Int) : Bool := 299 < httpCode

section Filters

variable (env : ReplyEnv) (reply : Reply)

/-- `RestResponse_get_header_value` -/
def Reply.getHeaderValue (name : CStr) : Option CStr := env.rest.getHeaderValue reply.headers name

/-- Read the body as a document; what is no document is logged as a text. -/
def readBody {α : Type} (unread : α) (parse : env.xml.Document → Except Fault α) :
    Except Fault α :=
  (env.xml.readMemory reply.body reply.contentLength.toInt32).elim
    (if reply.body.isSome then .ok unread else .error .nullText) parse

/-- The generated functions `…_unmarshal`: the text is measured, read and bound
from its root on. -/
def unmarshal : Except Fault (Option (CStr × List Node)) :=
  reply.body.elim (.error .nullText) fun body =>
    let docsz := (body.takeWhile (· != 0)).length
    .ok ((env.xml.readMemory (some body) (Int32.ofNat docsz)).map env.xml.rootElement)

/-- A tag of the header: without a length, `curl_easy_unescape` measures the
text. -/
def listableTagText (curl : Curl) (utf8 : Bool) (tag field : CStr) : Except Fault CStr :=
  if utf8 then
    (curl.easyUnescape (if field = [] then tag else field)).elim (.error .nullText) fun decoded =>
      .ok (decoded.takeWhile (· != 0))
  else .ok field

/-- The loop of `AtmosFilter_get_listable_tags`, for a number of rounds. -/
def scanTags (curl : Curl) (utf8 : Bool) : Nat → CStr → List CStr → Except Fault (List CStr)
  | 0, _, tags => .ok tags
  | fuel + 1, tag, tags =>
      if tag = [] then .ok tags
      else if tag.head? = some space then scanTags curl utf8 fuel tag.tail tags
      else
        let field := tag.takeWhile (· != comma)
        (listableTagText curl utf8 tag field).bind fun text =>
          if field.length < tag.length then
            scanTags curl utf8 fuel (tag.drop (field.length + 1)) (tags ++ [text])
          else .ok (tags ++ [text])

/-- Copy the object id of a location to a field: `strncpy` is given the length
of what follows the prefix, which is negative for a short location. -/
def copyLocation (field : Block atmosOidLength) (location : CStr) :
    Except Fault (Block atmosOidLength) :=
  if atmosOidLength - 1 + atmosOidLocationPrefixSize < location.length then .ok field
  else if location.length < atmosOidLocationPrefixSize then .error .overflow
  else within (field.write 0 (location.drop atmosOidLocationPrefixSize))

def atmosAccessTokenLocationPrefix : CStr := bytes "/rest/accesstokens/"

/-- Read the metadata and the ACL of an object. -/
def AtmosReadObjectResponse.parse (self : AtmosReadObjectResponse) :
    Except Fault AtmosReadObjectResponse :=
  within do
    let systemMetadata ←
      parseSystemMetaHeader env.time env.rest env.curl reply.headers self.systemMetadata
    let arrays ← self.arrays.parse env.rest env.curl reply.headers
    some { arrays, systemMetadata }

namespace AtmosFilter.After

/-- `AtmosFilter_parse_service_info_response` -/
def parseServiceInfoResponse : Response → Except Fault Response :=
  parseUnless (· ≠ 200) fun
    | .serviceInfo self =>
        readBody env reply (.serviceInfo self) fun doc =>
          (within (self.parse env.xml doc)).map fun self =>
            if reply.getHeaderValue env atmosHeaderSupportUtf8 = some (bytes "true") then
              .serviceInfo { self with utf8MetadataSupported := true }
            else .serviceInfo self
    | _ => .error .foreignField

/-- `AtmosFilter_parse_create_response` -/
def parseCreateResponse : Response → Except Fault Response :=
  parseUnless (· ≠ 201) fun
    | .createObject objectId =>
        (reply.getHeaderValue env httpHeaderLocation).elim (.ok (.createObject objectId))
          fun location => (copyLocation objectId location).map .createObject
    | _ => .error .foreignField

/-- `AtmosFilter_parse_read_object_response` -/
def parseReadObjectResponse : Response → Except Fault Response :=
  parseUnless aboveSuccess fun
    | .readObject self => (self.parse env reply).map .readObject
    | .listDirectory parent token entries =>
        (parent.parse env reply).map fun parent => .listDirectory parent token entries
    | _ => .error .foreignField

/-- `AtmosFilter_parse_get_user_meta_response` -/
def parseGetUserMetaResponse : Response → Except Fault Response :=
  parseUnless aboveSuccess fun
    | .getUserMeta metadata listableMeta =>
        (within (parseUserMetaHeaders env.rest env.curl reply.headers metadata listableMeta)).map
          fun arrays => .getUserMeta arrays.1 arrays.2
    | _ => .error .foreignField

/-- `AtmosFilter_get_system_metadata`, on the way back. -/
def getSystemMetadata : Response → Except Fault Response :=
  parseUnless aboveSuccess fun
    | .getSystemMeta systemMetadata =>
        (within (parseSystemMetaHeader env.time env.rest env.curl reply.headers
          systemMetadata)).map .getSystemMeta
    | _ => .error .foreignField

/-- `AtmosFilter_parse_get_acl_response`: the array is written only where the
response has one of the headers, whatever object it is in. -/
def parseGetAclResponse : Response → Except Fault Response :=
  parseUnless aboveSuccess fun
    | .getAcl acl => (within (parseAclHeaders env.rest reply.headers acl)).map .getAcl
    | data =>
        if (reply.getHeaderValue env atmosHeaderUserAcl).isSome ∨
            (reply.getHeaderValue env atmosHeaderGroupAcl).isSome then .error .foreignField
        else .ok data

/-- `AtmosFilter_parse_get_info_response` -/
def parseGetInfoResponse : Response → Except Fault Response :=
  parseUnless aboveSuccess fun
    | .getObjectInfo self =>
        readBody env reply (.getObjectInfo self) fun doc =>
          (within (self.parse env.time env.xml doc)).map .getObjectInfo
    | _ => .error .foreignField

/-- `AtmosFilter_list_directory`, on the way back. -/
def listDirectory : Response → Except Fault Response :=
  parseUnless aboveSuccess fun
    | .listDirectory parent token entries =>
        (readBody env reply entries fun doc =>
          within (AtmosListDirectoryResponse.parse env.time env.curl env.xml doc entries)).map
            (.listDirectory parent ((reply.getHeaderValue env atmosHeaderToken).or token))
    | _ => .error .foreignField

/-- `AtmosFilter_get_listable_tags`, on the way back: the tags are allocated
anew. -/
def getListableTags : Response → Except Fault Response :=
  parseUnless aboveSuccess fun
    | .getListableTags token _ =>
        let tag := (reply.getHeaderValue env atmosHeaderListableTags).getD []
        (scanTags env.curl (isUtf8 env.rest reply.headers) (tag.length + 1) tag []).map fun tags =>
          .getListableTags ((reply.getHeaderValue env atmosHeaderToken).or token) (some tags)
    | _ => .error .foreignField

/-- `AtmosFilter_list_objects`, on the way back. -/
def listObjects : Response → Except Fault Response :=
  parseUnless aboveSuccess fun
    | .listObjects token results =>
        (readBody env reply results fun doc =>
          within (AtmosListObjectsResponse.parse env.time env.curl env.xml doc results)).map
            (.listObjects ((reply.getHeaderValue env atmosHeaderToken).or token))
    | _ => .error .foreignField

/-- `AtmosFilter_parse_create_version_response` -/
def parseCreateVersionResponse : Response → Except Fault Response :=
  parseUnless aboveSuccess fun
    | .createVersion versionId =>
        (reply.getHeaderValue env httpHeaderLocation).elim (.ok (.createVersion versionId))
          fun location => (copyLocation versionId location).map .createVersion
    | _ => .error .foreignField

/-- `AtmosFilter_list_versions` -/
def listVersions : Response → Except Fault Response :=
  parseUnless aboveSuccess fun
    | .listVersions token versions =>
        (readBody env reply versions fun doc =>
          within (AtmosListVersionsResponse.parse env.time env.xml doc versions)).map
            (.listVersions ((reply.getHeaderValue env atmosHeaderToken).or token))
    | _ => .error .foreignField

/-- `AtmosFilter_create_access_token`, on the way back. -/
def createAccessToken : Response → Except Fault Response :=
  parseUnless aboveSuccess fun
    | .createAccessToken tokenId =>
        .ok ((reply.getHeaderValue env httpHeaderLocation).elim (.createAccessToken tokenId)
          fun location =>
            if atmosAccessTokenLocationPrefix <+: location then
              .createAccessToken
                (.strncpy (location.drop atmosAccessTokenLocationPrefix.length))
            else .createAccessToken tokenId)
    | _ => .error .foreignField

/-- `AtmosFilter_parse_list_access_tokens_response` -/
def parseListAccessTokensResponse : Response → Except Fault Response :=
  parseUnless aboveSuccess fun
    | .listAccessTokens token _ =>
        (unmarshal env reply).map
          (.listAccessTokens ((reply.getHeaderValue env atmosHeaderToken).or token))
    | _ => .error .foreignField

/-- `AtmosFilter_parse_get_token_info_response` -/
def parseGetTokenInfoResponse : Response → Except Fault Response :=
  parseUnless aboveSuccess fun
    | .getAccessTokenInfo _ => (unmarshal env reply).map .getAccessTokenInfo
    | _ => .error .foreignField

/-! ## Errors -/

/-- The document of an error, in the file or in memory.  `content_length` is
converted to an `int` for the one in memory, and to a `size_t` for the bytes that
are read from the file. -/
def errorDocument : Option env.xml.Document :=
  reply.fileBody.elim (env.xml.readMemory reply.body reply.contentLength.toInt32)
    fun fileBody => env.xml.readIo (fileBody.take reply.contentLength.toUInt64.toNat)

/-- Whether a document is an error with a code or a message. -/
def hasError (doc : env.xml.Document) : Bool :=
  (env.xml.rootElement doc).1 = bytes "Error" ∧
    ((selectSingleNodeValue env.xml doc (bytes "/Error/Code") false).isSome ∨
      (selectSingleNodeValue env.xml doc (bytes "/Error/Message") false).isSome)

/-- The methods without a body in the response. -/
def hasNoBody (method : HttpMethod) : Bool := method = .delete ∨ method = .put ∨ method = .head

/-- `AtmosFilter_parse_atmos_error` -/
def parseAtmosError (method : HttpMethod) (response : Response) : Except Fault Response :=
  if hasNoBody method then .ok response
  else if 399 < response.parent.httpCode then
    (errorDocument env reply).elim
      (if reply.fileBody.isSome ∨ reply.body.isSome then .ok response else .error .nullText)
      fun doc =>
        if response.parent.isRestResponse ∧ hasError env doc then .error .foreignField
        else (within (response.parent.parseError env.xml doc)).map fun parent =>
          { response with parent }
  else .ok response

/-- `RestFilter_execute_curl_request`, on the way back. -/
def executeCurlRequest (response : Response) : Except Fault Response :=
  .ok { response with
    parent := { response.parent with httpCode := reply.httpCode, httpStatus := reply.httpStatus } }

end AtmosFilter.After

/-- What a filter does on the way back. -/
def RestFilter.after (method : HttpMethod) : RestFilter → Response → Except Fault Response
  | .executeCurlRequest => AtmosFilter.After.executeCurlRequest reply
  | .parseAtmosError => AtmosFilter.After.parseAtmosError env reply method
  | .parseServiceInfoResponse => AtmosFilter.After.parseServiceInfoResponse env reply
  | .parseCreateResponse => AtmosFilter.After.parseCreateResponse env reply
  | .parseReadObjectResponse => AtmosFilter.After.parseReadObjectResponse env reply
  | .parseGetUserMetaResponse => AtmosFilter.After.parseGetUserMetaResponse env reply
  | .getSystemMetadata => AtmosFilter.After.getSystemMetadata env reply
  | .parseGetAclResponse => AtmosFilter.After.parseGetAclResponse env reply
  | .parseGetInfoResponse => AtmosFilter.After.parseGetInfoResponse env reply
  | .listDirectory => AtmosFilter.After.listDirectory env reply
  | .getListableTags => AtmosFilter.After.getListableTags env reply
  | .listObjects => AtmosFilter.After.listObjects env reply
  | .parseCreateVersionResponse => AtmosFilter.After.parseCreateVersionResponse env reply
  | .listVersions => AtmosFilter.After.listVersions env reply
  | .createAccessToken => AtmosFilter.After.createAccessToken env reply
  | .parseListAccessTokensResponse => AtmosFilter.After.parseListAccessTokensResponse env reply
  | .parseGetTokenInfoResponse => AtmosFilter.After.parseGetTokenInfoResponse env reply
  | .setContentHeaders | .signRequest | .addUid | .addDate | .setWriteHeaders
  | .setReadObjectHeaders | .setGetUserMetaHeaders | .updateObject | .setPaginationHeaders => .ok

/-- Whether a filter does anything on the way back. -/
def RestFilter.worksAfter : RestFilter → Bool
  | .setContentHeaders | .signRequest | .addUid | .addDate | .setWriteHeaders
  | .setReadObjectHeaders | .setGetUserMetaHeaders | .updateObject | .setPaginationHeaders => false
  | _ => true

theorem after_of_not_works (method : HttpMethod) {f : RestFilter} (h : f.worksAfter = false)
    (response : Response) : f.after env reply method response = .ok response := by
  cases f with
  | setContentHeaders | signRequest | addUid | addDate | setWriteHeaders | setReadObjectHeaders
  | setGetUserMetaHeaders | updateObject | setPaginationHeaders => rfl
  | _ => cases h

/-- The way back through the chain of a call. -/
def Call.receive (call : Call) (response : Response) : Except Fault Response :=
  unwind (RestFilter.after env reply call.request.parent.method) call.chain response

end Filters

/-! ## Operations -/

/-- What the operations of one family share: the filters they add to the default
ones and the class of their response. -/
inductive Operation.Family where
  | serviceInformation
  | create
  | plain
  | read
  | getUserMeta
  | setUserMeta
  | getSystemMeta
  | getAcl
  | setAcl
  | update
  | objectInfo
  | listDirectory
  | listableTags
  | listObjects
  | createVersion
  | listVersions
  | createAccessToken
  | listAccessTokens
  | accessTokenInfo
  deriving DecidableEq, Repr

namespace Operation

/-- The family of an operation. -/
def family : Operation → Family
  | getServiceInformation => .serviceInformation
  | createObject .. | createObjectSimple .. | createObjectSimpleNs ..
  | createObjectSimpleKeypool .. | createObjectFile .. | createObjectFileNs ..
  | createObjectFileKeypool .. => .create
  | deleteObject .. | deleteObjectNs .. | deleteObjectKeypool .. | deleteUserMeta ..
  | deleteUserMetaNs .. | deleteUserMetaKeypool .. | renameObject .. | deleteVersion ..
  | restoreVersion .. | deleteAccessToken .. => .plain
  | readObject .. | readObjectSimple .. | readObjectSimpleNs .. | readObjectSimpleKeypool ..
  | headObject .. | headObjectNs .. | headObjectKeypool .. => .read
  | getUserMeta .. | getUserMetaSimple .. | getUserMetaSimpleNs ..
  | getUserMetaSimpleKeypool .. => .getUserMeta
  | setUserMeta .. => .setUserMeta
  | getSystemMeta .. | getSystemMetaSimple .. | getSystemMetaSimpleNs ..
  | getSystemMetaSimpleKeypool .. => .getSystemMeta
  | getAcl .. | getAclNs .. | getAclKeypool .. => .getAcl
  | setAcl .. | setAclNs .. | setAclKeypool .. => .setAcl
  | updateObject .. | updateObjectSimple .. | updateObjectSimpleNs ..
  | updateObjectSimpleKeypool .. | updateObjectFile .. | updateObjectFileNs ..
  | updateObjectFileKeypool .. => .update
  | getObjectInfo .. | getObjectInfoNs .. | getObjectInfoKeypool .. => .objectInfo
  | listDirectory .. => .listDirectory
  | getListableTags .. => .listableTags
  | listObjects .. => .listObjects
  | createVersion .. => .createVersion
  | listVersions .. => .listVersions
  | createAccessToken .. => .createAccessToken
  | listAccessTokens .. => .listAccessTokens
  | getAccessTokenInfo .. => .accessTokenInfo

namespace Family

/-- The filters, in the order in which they are added. -/
def filters : Family → List RestFilter
  | serviceInformation => [.parseServiceInfoResponse]
  | create => [.parseCreateResponse, .setWriteHeaders]
  | plain => []
  | read => [.setReadObjectHeaders, .parseReadObjectResponse]
  | getUserMeta => [.setGetUserMetaHeaders, .parseGetUserMetaResponse]
  | setUserMeta => [.setWriteHeaders]
  | getSystemMeta => [.getSystemMetadata]
  | getAcl | setAcl => [.parseGetAclResponse]
  | update => [.setWriteHeaders, .updateObject]
  | objectInfo => [.parseGetInfoResponse]
  | listDirectory => [.parseReadObjectResponse, .listDirectory, .setPaginationHeaders]
  | listableTags => [.setPaginationHeaders, .getListableTags]
  | listObjects => [.listObjects, .setPaginationHeaders]
  | createVersion => [.parseCreateVersionResponse]
  | listVersions => [.listVersions, .setPaginationHeaders]
  | createAccessToken => [.createAccessToken]
  | listAccessTokens => [.setPaginationHeaders, .parseListAccessTokensResponse]
  | accessTokenInfo => [.parseGetTokenInfoResponse]

/-- What the `…_init` function of the response leaves in its own fields. -/
def data : Family → ResponseData
  | serviceInformation => .serviceInfo .init
  | create => .createObject (.zero atmosOidLength)
  | plain | setUserMeta | setAcl | update => .atmosResponse
  | read => .readObject ⟨zeroedArrays, zeroedSystemMetadata⟩
  | getUserMeta => .getUserMeta zeroedArrays.metadata zeroedArrays.listableMeta
  | getSystemMeta => .getSystemMeta zeroedSystemMetadata
  | getAcl => .getAcl zeroedArrays.acl
  | objectInfo => .getObjectInfo .init
  | listDirectory => .listDirectory ⟨zeroedArrays, zeroedSystemMetadata⟩ none []
  | listableTags => .getListableTags none none
  | listObjects => .listObjects none []
  | createVersion => .createVersion (.zero atmosOidLength)
  | listVersions => .listVersions none []
  | createAccessToken => .createAccessToken (.zero atmosSimpleHeaderMax)
  | listAccessTokens => .listAccessTokens none none
  | accessTokenInfo => .getAccessTokenInfo none

/-- The object that an application passes; a plain one will do for the operations that write
and delete. -/
def object : Family → ResponseObject
  | serviceInformation | plain | setUserMeta | setAcl | update => .atmosResponse
  | _ => .subclass

end Family

/-- The response object an application passes to an operation. -/
def response (op : Operation) : Response := ⟨.init op.family.object, op.family.data⟩

/-- It has an Atmos error. -/
theorem response_isRestResponse (op : Operation) :
    op.response.parent.isRestResponse = false := by
  unfold response
  cases op.family <;> rfl

/-- The chain of an operation is that of its family. -/
theorem chain_of_call {env : Env} {op : Operation} {call : Call} (h : op.call env = some call) :
    call.chain = op.family.filters.foldl add (AtmosClient.addDefaultFilters []) := by
  cases op <;> first
    | obtain rfl := Option.some.inj h
      rfl
    | obtain ⟨request, -, rfl⟩ := Option.map_eq_some_iff.mp h
      rfl
    | obtain ⟨request, -, hcall⟩ := Option.bind_eq_some_iff.mp h
      obtain rfl := Option.some.inj hcall
      rfl

end Operation

/-! ## Failures -/

/-- The test of a filter that parses, given `http_code`. -/
def RestFilter.failed : RestFilter → Int → Bool
  | .parseServiceInfoResponse => (· ≠ 200)
  | .parseCreateResponse => (· ≠ 201)
  | .parseReadObjectResponse | .parseGetUserMetaResponse | .getSystemMetadata
  | .parseGetAclResponse | .parseGetInfoResponse | .listDirectory | .getListableTags
  | .listObjects | .parseCreateVersionResponse | .listVersions | .createAccessToken
  | .parseListAccessTokensResponse | .parseGetTokenInfoResponse => aboveSuccess
  | _ => fun _ => true

/-- Whether the tests of an operation's filters all find a failure. -/
def Operation.Family.failed (family : Operation.Family) (httpCode : Int) : Bool :=
  family.filters.all (·.failed httpCode)

section Failures

variable (env : ReplyEnv) (reply : Reply)

/-- A filter of an operation that finds a failure leaves the response alone. -/
theorem after_of_failed {method : HttpMethod} {family : Operation.Family} {f : RestFilter}
    (hf : f ∈ family.filters) {response : Response}
    (hfailed : f.failed response.parent.httpCode = true) :
    f.after env reply method response = .ok response := by
  have hdefault : f ≠ .executeCurlRequest ∧ f ≠ .parseAtmosError := by
    constructor <;>
    · rintro rfl
      cases family <;> simp [Operation.Family.filters] at hf
  cases f with
  | executeCurlRequest => exact absurd rfl hdefault.1
  | parseAtmosError => exact absurd rfl hdefault.2
  | _ => first
    | rfl
    | exact if_pos hfailed

/-- The response after the error filter: only the fields of `AtmosResponse` can
have changed. -/
def afterErrors (method : HttpMethod) (response : Response) : Except Fault Response :=
  (AtmosFilter.After.executeCurlRequest reply response).bind
    (AtmosFilter.After.parseAtmosError env reply method)

/-- The default filters parse the errors. -/
theorem unwind_default (method : HttpMethod) (response : Response) :
    unwind (RestFilter.after env reply method) (AtmosClient.addDefaultFilters []) response =
      afterErrors env reply method response :=
  bind_pure (afterErrors env reply method response)

/-- The error filter does not touch the code, or the fields of the class. -/
theorem afterErrors_eq_ok {method : HttpMethod} {response response' : Response}
    (h : afterErrors env reply method response = .ok response') :
    response'.parent.httpCode = reply.httpCode ∧ response'.data = response.data := by
  change AtmosFilter.After.parseAtmosError env reply method _ = _ at h
  unfold AtmosFilter.After.parseAtmosError at h
  split at h
  · cases h
    exact ⟨rfl, rfl⟩
  · split at h
    · cases hdoc : AtmosFilter.After.errorDocument env reply with
      | none =>
          rw [hdoc, Option.elim_none] at h
          split at h
          · cases h
            exact ⟨rfl, rfl⟩
          · cases h
      | some doc =>
          rw [hdoc, Option.elim_some] at h
          split at h
          · cases h
          · obtain ⟨parent, hparse, rfl⟩ := map_eq_ok.mp h
            exact ⟨(AtmosResponse.parseError_eq_some (within_eq_ok.mp hparse)).1, rfl⟩
    · cases h
      exact ⟨rfl, rfl⟩

/-- **The way back of an operation**: first the errors are parsed, then the
operation's own filters work on the response. -/
theorem receive_eq {op : Operation} {call : Call} (h : op.call env.toEnv = some call)
    (response : Response) :
    call.receive env reply response =
      (afterErrors env reply call.request.parent.method response).bind fun response =>
        op.family.filters.foldlM
          (fun response f => f.after env reply call.request.parent.method response) response := by
  rw [Call.receive, Operation.chain_of_call h, unwind_foldl_add, unwind_default]
  rfl

/-- **A failure is not parsed**: if every filter of the operation finds one, only
the errors are. -/
theorem receive_of_failed {op : Operation} {call : Call} (h : op.call env.toEnv = some call)
    (hfailed : op.family.failed reply.httpCode = true) (response : Response) :
    call.receive env reply response =
      afterErrors env reply call.request.parent.method response := by
  rw [receive_eq env reply h]
  cases hafter : afterErrors env reply call.request.parent.method response with
  | error fault => rfl
  | ok response' =>
      have hcode := (afterErrors_eq_ok env reply hafter).1
      refine foldlM_idle _ fun f hf => after_of_failed env reply hf ?_
      rw [hcode]
      exact List.all_eq_true.mp hfailed f hf

end Failures

end Atmos
