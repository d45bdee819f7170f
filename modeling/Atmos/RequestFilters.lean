import Atmos.CanonicalRequest
import Atmos.FilterChain
import Atmos.Requests

/-!
# Filters

An operation runs its request through a chain of filters.  Each of them works
on the request, calls the next one and then works on the response; this file
models them up to that call.  The last filter hands the request to libcurl.

A filter that gives up does not call the next one: it leaves an error in the
response and returns.  The result `none` is undefined behaviour, such as a
NULL string for `%s`.
-/

namespace Atmos

open ByteText FixedMemory FilterChain

/-! ## The clock -/

/-- `struct tm` in GMT, for a year of four digits. -/
structure Tm where
  tmSec : Fin 61
  tmMin : Fin 60
  tmHour : Fin 24
  tmMday : Fin 32
  tmMon : Fin 12
  year : Fin 10000
  tmWday : Fin 7
  deriving DecidableEq, Repr

namespace Tm

/-- `%a` in the C locale -/
def dayName (t : Tm) : CStr :=
  [bytes "Sun", bytes "Mon", bytes "Tue", bytes "Wed", bytes "Thu", bytes "Fri",
    bytes "Sat"].get t.tmWday

/-- `%b` in the C locale -/
def monthName (t : Tm) : CStr :=
  [bytes "Jan", bytes "Feb", bytes "Mar", bytes "Apr", bytes "May", bytes "Jun",
    bytes "Jul", bytes "Aug", bytes "Sep", bytes "Oct", bytes "Nov",
    bytes "Dec"].get t.tmMon

/-- A digit of a number. -/
def digit (n : Nat) : UInt8 := 48 + UInt8.ofNat (n % 10)

/-- A number in two digits. -/
def twoDigits (n : Nat) : CStr := [digit (n / 10), digit n]

end Tm

/-- `AtmosUtil_get_date`: `"%a, %d %b %Y %H:%M:%S GMT"` -/
def AtmosUtil.getDate (t : Tm) : CStr :=
  t.dayName ++ bytes ", " ++ Tm.twoDigits t.tmMday ++ bytes " " ++ t.monthName ++ bytes " " ++
    (Tm.twoDigits (t.year / 100) ++ Tm.twoDigits t.year) ++ bytes " " ++
    Tm.twoDigits t.tmHour ++ bytes ":" ++ Tm.twoDigits t.tmMin ++ bytes ":" ++
    Tm.twoDigits t.tmSec ++ bytes " GMT"

theorem length_dayName (t : Tm) : t.dayName.length = 3 := by
  have hall : ∀ i : Fin 7, ([bytes "Sun", bytes "Mon", bytes "Tue", bytes "Wed",
      bytes "Thu", bytes "Fri", bytes "Sat"].get i).length = 3 := by decide
  exact hall t.tmWday

theorem head_dayName (t : Tm) : t.dayName.head? ≠ some space := by
  have hall : ∀ i : Fin 7, ([bytes "Sun", bytes "Mon", bytes "Tue", bytes "Wed",
      bytes "Thu", bytes "Fri", bytes "Sat"].get i).head? ≠ some space := by decide
  exact hall t.tmWday

theorem length_monthName (t : Tm) : t.monthName.length = 3 := by
  have hall : ∀ i : Fin 12, ([bytes "Jan", bytes "Feb", bytes "Mar", bytes "Apr",
      bytes "May", bytes "Jun", bytes "Jul", bytes "Aug", bytes "Sep", bytes "Oct",
      bytes "Nov", bytes "Dec"].get i).length = 3 := by decide
  exact hall t.tmMon

theorem length_getDate (t : Tm) : (AtmosUtil.getDate t).length = 29 := by
  have htwo : ∀ n, (Tm.twoDigits n).length = 2 := fun _ => rfl
  have hcomma : (bytes ", ").length = 2 := by decide
  have hspace : (bytes " ").length = 1 := by decide
  have hcolon : (bytes ":").length = 1 := by decide
  have hgmt : (bytes " GMT").length = 4 := by decide
  simp only [AtmosUtil.getDate, List.length_append, length_dayName, length_monthName, htwo,
    hcomma, hspace, hcolon, hgmt]

/-- A date starts with the name of a day. -/
theorem head_getDate (t : Tm) : (AtmosUtil.getDate t).head? ≠ some space := by
  obtain ⟨b, s, hday⟩ : ∃ b s, t.dayName = b :: s := by
    apply List.exists_cons_of_ne_nil
    apply List.ne_nil_of_length_pos
    rw [length_dayName]
    decide
  have hhead := head_dayName t
  rw [hday, List.head?_cons] at hhead
  unfold AtmosUtil.getDate
  simp only [hday, List.cons_append, List.head?_cons]
  exact hhead

/-! ## State -/

/-- What an execution takes from its surroundings: the libraries, the client
object and the time. -/
structure Env where
  rest : RestClient
  curl : Curl
  openssl : Openssl
  atmos : AtmosClient
  now : Tm

/-- The object that an application passes for a response. -/
inductive ResponseObject where
  /-- a plain `RestResponse`, which has no Atmos error -/
  | restResponse
  /-- an `AtmosResponse`, under the class name of a `RestResponse` -/
  | atmosResponse
  /-- a response that begins with an `AtmosResponse` and has a class name of its own -/
  | subclass
  deriving DecidableEq, Repr

/-- `AtmosResponse`, as far as the filters write to it. -/
structure AtmosResponse where
  object : ResponseObject
  httpCode : Int
  httpStatus : CStr
  atmosError : Int
  atmosErrorMessage : CStr
  deriving DecidableEq, Repr

namespace AtmosResponse

/-- `AtmosResponse_init`, which leaves the class name as `RestResponse_init` sets it, or what
the `_init` functions of other responses make of it. -/
def init (object : ResponseObject) : AtmosResponse where
  object := object
  httpCode := 0
  httpStatus := []
  atmosError := 0
  atmosErrorMessage := []

/-- There is no Atmos error in the object. -/
def isRestResponse (self : AtmosResponse) : Bool := self.object = .restResponse

/-- `AtmosResponse_set_api_error` -/
def setApiError (self : AtmosResponse) (code : Int) (message : CStr) : AtmosResponse :=
  { self with
    httpCode := 400
    httpStatus := bytes "Bad Request"
    atmosError := code
    atmosErrorMessage := message }

/-- What a write filter that gives up leaves in the response. It goes by the class name, by
which an `AtmosResponse` is a basic `RestResponse`. -/
def reject (self : AtmosResponse) (code : Int) (message : CStr) : AtmosResponse :=
  if self.object ≠ .subclass then
    { self with httpCode := 400, httpStatus := bytes "Bad Request" }
  else self.setApiError code message

end AtmosResponse

/-- What happens to a request on its way: it is signed, with the string that
was signed, and handed to libcurl. -/
inductive Event where
  | signed (request : RestRequest) (hashString : CStr)
  | sent (request : RestRequest)
  deriving DecidableEq, Repr

/-- The state a chain works on. -/
structure Exchange where
  request : AtmosRequest
  response : AtmosResponse
  trace : List Event
  deriving DecidableEq, Repr

namespace Exchange

/-- The header lines of the request. -/
abbrev headers (x : Exchange) : List CStr := x.request.parent.headers

/-- Replace the `RestRequest`. -/
def setParent (x : Exchange) (parent : RestRequest) : Exchange :=
  { x with request := { x.request with parent } }

/-- `RestRequest_add_header` -/
def addHeader (x : Exchange) (line : CStr) : Exchange :=
  x.setParent (x.request.parent.addHeader line)

/-- Store the checksum back into the request. -/
def setChecksum (x : Exchange) (checksum : AtmosChecksum) : Exchange :=
  { x with request := { x.request with fields := x.request.fields.setChecksum checksum } }

/-- Store the body back into the request. -/
def setBody (x : Exchange) (body : RequestBody) : Exchange :=
  x.setParent { x.request.parent with requestBody := some body }

/-- Give up with an error found before sending. -/
def reject (x : Exchange) (code : Int) (message : CStr) : Exchange :=
  { x with response := x.response.reject code message }

end Exchange

/-! ## Tags -/

namespace AtmosUtil

/-- `AtmosUtil_cstring_append_utf8`, which leaves the buffer alone where the
text cannot be encoded. -/
def cstringAppendUtf8 (curl : Curl) (buf str : CStr) : CStr :=
  buf ++ (curl.escapeString str).getD []

/-- One round of the loop of `AtmosUtil_set_tags_header`. -/
def tagStep (curl : Curl) (utf8 : Bool) (header : CStr) (tag : CStr × Nat) : CStr :=
  let header := if 0 < tag.2 then header ++ bytes ", " else header
  if utf8 then
    match curl.escapeString tag.1 with
    | none => header
    | some encodedTag => header ++ encodedTag
  else header ++ tag.1

/-- `AtmosUtil_set_tags_header`, and `AtmosUtil_set_tags_header2`, which takes
the tags by reference. -/
def setTagsHeader (curl : Curl) (tags : List CStr) (utf8 : Bool) (request : RestRequest) :
    RestRequest :=
  if tags.length < 1 then request
  else request.addHeader
    (tags.zipIdx.foldl (tagStep curl utf8) (atmosHeaderTags ++ bytes ": "))

/-- The loop of the listing filters over `user_tags` or `system_tags`: the
header for a list of tags that is not empty. -/
def listedTagsHeader (append : CStr → CStr → CStr) (name : CStr) :
    List CStr → Option CStr
  | [] => none
  | tag :: tags =>
      some (tags.foldl (fun header tag => append (header ++ bytes ", ") tag)
        (append (name ++ bytes ": ") tag))

end AtmosUtil

namespace Exchange

/-- Add a header line if there is one. -/
def addHeader? (x : Exchange) (line : Option CStr) : Exchange :=
  match line with
  | some line => x.addHeader line
  | none => x

end Exchange

/-! ## The filters -/

/-- The functions a chain is made of. -/
inductive RestFilter where
  | executeCurlRequest
  | setContentHeaders
  | signRequest
  | addUid
  | addDate
  | parseAtmosError
  | parseServiceInfoResponse
  | parseCreateResponse
  | setWriteHeaders
  | setReadObjectHeaders
  | parseReadObjectResponse
  | setGetUserMetaHeaders
  | parseGetUserMetaResponse
  | getSystemMetadata
  | parseGetAclResponse
  | updateObject
  | parseGetInfoResponse
  | listDirectory
  | setPaginationHeaders
  | getListableTags
  | listObjects
  | parseCreateVersionResponse
  | listVersions
  | createAccessToken
  | parseListAccessTokensResponse
  | parseGetTokenInfoResponse
  deriving DecidableEq, Repr

namespace AtmosFilter

/-- The line `x-emc-utf8: true`, where the client is in utf8 mode. -/
def utf8Header (env : Env) : Option CStr :=
  if env.atmos.enableUtf8Metadata then some (headerLine atmosHeaderUtf8 (bytes "true"))
  else none

/-- `AtmosFilter_add_uid` -/
def addUid (env : Env) (x : Exchange) : Option (Step Exchange Exchange) :=
  some (.next (x.addHeader (snprintf atmosSimpleHeaderMax
    (atmosHeaderUid ++ [colon] ++ env.atmos.uid))))

/-- `AtmosFilter_add_date` -/
def addDate (env : Env) (x : Exchange) : Option (Step Exchange Exchange) :=
  some (.next (x.addHeader (snprintf atmosSimpleHeaderMax
    (httpHeaderDate ++ [colon] ++ AtmosUtil.getDate env.now))))

/-- `AtmosFilter_sign_request`, with `AtmosClient_sign_request`. -/
def signRequest (env : Env) (x : Exchange) : Option (Step Exchange Exchange) := do
  let hashString ← AtmosClient.canonicalizeRequest env.rest x.request.parent
  let signature := env.atmos.sign env.openssl hashString
  let x := { x with trace := x.trace ++ [Event.signed x.request.parent hashString] }
  some (.next (x.addHeader (snprintf atmosSimpleHeaderMax
    (atmosHeaderSignature ++ [colon] ++ signature))))

/-- `RestFilter_set_content_headers` only appends headers. -/
def setContentHeaders (env : Env) (x : Exchange) : Option (Step Exchange Exchange) :=
  some (.next (x.setParent { x.request.parent with
    headers := x.headers ++ env.rest.contentHeaders x.request.parent }))

/-- `RestFilter_execute_curl_request` -/
def executeCurlRequest (x : Exchange) : Option (Step Exchange Exchange) :=
  some (.next { x with trace := x.trace ++ [Event.sent x.request.parent] })

/-- A filter that only works on the response. -/
def passOn (x : Exchange) : Option (Step Exchange Exchange) := some (.next x)

/-! ### Writing -/

/-- `if(req->meta_count > 0)` or `if(req->listable_meta_count > 0)` -/
def addMetadata (env : Env) (entries : List AtmosMetadata) (listable : Bool)
    (x : Exchange) : Option Exchange :=
  if 0 < entries.length then
    (AtmosUtil.setMetadataHeader env.curl entries listable env.atmos.enableUtf8Metadata
      x.request.parent).map x.setParent
  else some x

/-- `if(req->acl_count > 0)` -/
def addAcl (acl : List AtmosAclEntry) (x : Exchange) : Option Exchange :=
  if 0 < acl.length then (AtmosUtil.setAclHeader acl x.request.parent).map x.setParent
  else some x

/-- The headers a new or changed object gets in any case: metadata, listable
metadata, the mode and the ACL. -/
def addObjectHeaders (env : Env) (metadata listableMeta : List AtmosMetadata)
    (acl : List AtmosAclEntry) (x : Exchange) : Option Exchange := do
  let x ← addMetadata env metadata false x
  let x ← addMetadata env listableMeta true x
  let x := x.addHeader? (utf8Header env)
  addAcl acl x

/-- Feed the body to the checksum before sending it.  A file is read and then
set back to where it was. -/
def checksumBody (openssl : Openssl) (checksum : AtmosChecksum) (body : RequestBody)
    (x : Exchange) : Step (Exchange × AtmosChecksum) Exchange :=
  match body.source with
  | .array data =>
      let checksum := checksum.update openssl data
      .next (x.setChecksum checksum, checksum)
  | .file f dataSize =>
      match f.ftello with
      | none =>
          .stop (x.reject atmosErrorApiFtellNotSupported atmosErrorApiFtellNotSupportedStr)
      | some cur =>
          let read := checksum.updateFile openssl f dataSize
          let x := (x.setChecksum read.1).setBody { body with source := .file read.2 dataSize }
          match read.2.fseeko cur with
          | none =>
              .stop (x.reject atmosErrorApiFseekNotSupported atmosErrorApiFseekNotSupportedStr)
          | some f => .next (x.setBody { body with source := .file f dataSize }, read.1)

/-- The branch of `AtmosFilter_set_write_headers` for `ATMOS_WSCHECKSUM`. -/
def wschecksum (env : Env) (checksum : AtmosChecksum) (x : Exchange) :
    Option (Step Exchange Exchange) :=
  match x.request.parent.requestBody with
  | none => some (.next x)
  | some body =>
      match checksumBody env.openssl checksum body x with
      | .stop x => some (.stop x)
      | .next (x, checksum) => do
          match ← checksum.getState env.openssl with
          | none =>
              some (.stop (x.reject atmosErrorApiChecksumFailed atmosErrorApiChecksumFailedStr))
          | some value =>
              some (.next (x.addHeader (snprintf atmosSimpleHeaderMax
                (headerLine atmosHeaderWschecksum value))))

/-- The branch of `AtmosFilter_set_write_headers` for
`ATMOS_GENERATE_CHECKSUM`: bytes in memory go to the checksum now, those of a
file while it is sent. -/
def generateChecksum (env : Env) (checksum : AtmosChecksum) (x : Exchange) :
    Option (Step Exchange Exchange) := do
  let algorithm ← checksum.alg.algorithm
  let x := x.addHeader (snprintf atmosSimpleHeaderMax
    (headerLine atmosHeaderGenerateChecksum algorithm))
  match x.request.parent.requestBody with
  | none => some (.next x)
  | some body =>
      match body.source with
      | .file _ _ => some (.next (x.setBody { body with fileFilter := true }))
      | .array data => some (.next (x.setChecksum (checksum.update env.openssl data)))

/-- The part of `AtmosFilter_set_write_headers` about checksums: the header is
only made once. -/
def setChecksumHeader (env : Env) (checksum : Option AtmosChecksum) (x : Exchange) :
    Option (Step Exchange Exchange) :=
  match checksum with
  | none => some (.next x)
  | some checksum =>
      match checksum.mode with
      | .wschecksum =>
          if (env.rest.getHeaderValue x.headers atmosHeaderWschecksum).isNone then
            wschecksum env checksum x
          else some (.next x)
      | .generateChecksum =>
          if (RestClient.getHeader x.headers atmosHeaderGenerateChecksum).isNone then
            generateChecksum env checksum x
          else some (.next x)

/-- `AtmosFilter_set_write_headers` -/
def setWriteHeaders (env : Env) (x : Exchange) : Option (Step Exchange Exchange) := do
  let req ← x.request.fields.asWrite
  let x := x.addHeader? (if x.request.parent.requestBody.isNone then
      some (headerLine httpHeaderContentType (bytes "application/octet-stream"))
    else none)
  let x ← addObjectHeaders env req.metadata req.listableMeta req.acl x
  setChecksumHeader env req.checksum x

/-- `"%s: Bytes="` and the numbers -/
def rangeLine (value : CStr) : CStr :=
  snprintf atmosSimpleHeaderMax (headerLine httpHeaderRange (bytes "Bytes=" ++ value))

/-- The `Range` header of a read or update request. -/
def rangeHeader (range : ObjectRange) : Option CStr :=
  let rangeStart := decimal range.rangeStart.toInt
  let rangeEnd := decimal range.rangeEnd.toInt
  if range.rangeStart ≠ -1 ∧ range.rangeEnd ≠ -1 then
    some (rangeLine (rangeStart ++ bytes "-" ++ rangeEnd))
  else if range.rangeStart ≠ -1 then some (rangeLine (rangeStart ++ bytes "-"))
  else if range.rangeEnd ≠ -1 then some (rangeLine (bytes "-" ++ rangeEnd))
  else none

/-- `AtmosFilter_update_object` -/
def updateObject (x : Exchange) : Option (Step Exchange Exchange) :=
  match x.request.fields with
  | .updateObject _ range => some (.next (x.addHeader? (rangeHeader range)))
  | _ => none

/-! ### Reading -/

/-- `AtmosFilter_set_read_object_headers` -/
def setReadObjectHeaders (env : Env) (x : Exchange) : Option (Step Exchange Exchange) :=
  match x.request.fields with
  | .readObject range =>
      some (.next ((x.addHeader? (rangeHeader range)).addHeader? (utf8Header env)))
  | _ => none

/-- `AtmosFilter_set_get_user_meta_headers` -/
def setGetUserMetaHeaders (env : Env) (x : Exchange) : Option (Step Exchange Exchange) :=
  match x.request.fields with
  | .getUserMeta tags =>
      let x := x.addHeader? (utf8Header env)
      some (.next (x.setParent (AtmosUtil.setTagsHeader env.curl tags
        env.atmos.enableUtf8Metadata x.request.parent)))
  | _ => none

/-- `AtmosFilter_get_system_metadata` -/
def getSystemMetadata (env : Env) (x : Exchange) : Option (Step Exchange Exchange) :=
  match x.request.fields with
  | .getSystemMeta tags =>
      let x := x.addHeader? (utf8Header env)
      some (.next (x.setParent
        (AtmosUtil.setTagsHeader env.curl tags false x.request.parent)))
  | _ => none

/-! ### Listing -/

/-- `sizeof(buffer)` in `AtmosFilter_set_pagination_headers` -/
abbrev paginationBufferSize : Nat := atmosTokenMax + 64

/-- `AtmosFilter_set_pagination_headers` -/
def setPaginationHeaders (x : Exchange) : Option (Step Exchange Exchange) := do
  let req ← x.request.fields.asPaginated
  let x := x.addHeader? (if 0 < req.token.length then
      some (snprintf paginationBufferSize (headerLine atmosHeaderToken req.token))
    else none)
  let x := x.addHeader? (if 0 < req.limit then
      some (snprintf paginationBufferSize (headerLine atmosHeaderLimit (decimal req.limit.toInt)))
    else none)
  some (.next x)

/-- The headers a listing with metadata asks for. -/
def addListedMetadata (env : Env) (listed : ListedMetadata) (x : Exchange) : Exchange :=
  if listed.includeMeta then
    let append := if env.atmos.enableUtf8Metadata then AtmosUtil.cstringAppendUtf8 env.curl
      else (· ++ ·)
    let x := x.addHeader (headerLine atmosHeaderIncludeMeta (bytes "true"))
    let x := x.addHeader? (AtmosUtil.listedTagsHeader append atmosHeaderUserTags listed.userTags)
    x.addHeader? (AtmosUtil.listedTagsHeader (· ++ ·) atmosHeaderSystemTags listed.systemTags)
  else x

/-- `AtmosFilter_list_directory` -/
def listDirectory (env : Env) (x : Exchange) : Option (Step Exchange Exchange) :=
  match x.request.fields with
  | .listDirectory _ listed =>
      some (.next (addListedMetadata env listed (x.addHeader? (utf8Header env))))
  | _ => none

/-- `AtmosFilter_list_objects`.  The tag is copied to a buffer of
`ATMOS_META_NAME_MAX` bytes, without a terminator where it is too long. -/
def listObjects (env : Env) (x : Exchange) : Option (Step Exchange Exchange) :=
  match x.request.fields with
  | .listObjects _ tag listed =>
      let x := x.addHeader? (utf8Header env)
      if tag.length < atmosMetaNameMax then
        let x := x.setParent (AtmosUtil.setTagsHeader env.curl [tag]
          env.atmos.enableUtf8Metadata x.request.parent)
        some (.next (addListedMetadata env listed x))
      else none
  | _ => none

/-- `AtmosFilter_get_listable_tags` -/
def getListableTags (env : Env) (x : Exchange) : Option (Step Exchange Exchange) :=
  match x.request.fields with
  | .getListableTags _ parentTag =>
      let x := x.addHeader? (if parentTag.text ≠ [] then
          some (snprintf (atmosPathMax + 12) (headerLine atmosHeaderTags parentTag.text))
        else none)
      some (.next (x.addHeader? (utf8Header env)))
  | _ => none

/-! ### Versions and access tokens -/

/-- `AtmosFilter_parse_create_version_response` -/
def parseCreateVersionResponse (env : Env) (x : Exchange) : Option (Step Exchange Exchange) :=
  let type := env.rest.getHeaderValue x.headers httpHeaderContentType
  some (.next (x.addHeader? (if type.isNone then
      some (headerLine httpHeaderContentType (bytes "application/octet-stream"))
    else none)))

/-- `AtmosFilter_create_access_token` -/
def createAccessToken (env : Env) (x : Exchange) : Option (Step Exchange Exchange) :=
  match x.request.fields with
  | .createAccessToken req => do
      let x := x.addHeader? (if 0 < req.objectId.length then
          some (snprintf atmosSimpleHeaderMax (headerLine atmosHeaderObjectid req.objectId))
        else if 0 < req.path.length then
          some (snprintf atmosSimpleHeaderMax (headerLine atmosHeaderPath req.path))
        else none)
      let x ← addObjectHeaders env req.metadata req.listableMeta req.acl x
      match req.policy with
      | none => some (.next (x.addHeader (headerLine httpHeaderContentType (bytes "text/xml"))))
      | some policy =>
          match policy.marshal with
          | none =>
              some (.stop { x with response := { x.response with
                httpCode := 400
                atmosError := 0
                atmosErrorMessage := bytes "Could not serialize policy object!" } })
          | some text =>
              some (.next (x.setParent
                (x.request.parent.setArrayBody text (some (bytes "text/xml")))))
  | _ => none

end AtmosFilter

/-! ## Chains -/

open RestFilter in
/-- The function of a filter, up to its call of the next one. -/
def RestFilter.before (env : Env) : RestFilter → Filter Exchange Exchange
  | executeCurlRequest => AtmosFilter.executeCurlRequest
  | setContentHeaders => AtmosFilter.setContentHeaders env
  | signRequest => AtmosFilter.signRequest env
  | addUid => AtmosFilter.addUid env
  | addDate => AtmosFilter.addDate env
  | setWriteHeaders => AtmosFilter.setWriteHeaders env
  | setReadObjectHeaders => AtmosFilter.setReadObjectHeaders env
  | setGetUserMetaHeaders => AtmosFilter.setGetUserMetaHeaders env
  | getSystemMetadata => AtmosFilter.getSystemMetadata env
  | updateObject => AtmosFilter.updateObject
  | listDirectory => AtmosFilter.listDirectory env
  | setPaginationHeaders => AtmosFilter.setPaginationHeaders
  | getListableTags => AtmosFilter.getListableTags env
  | listObjects => AtmosFilter.listObjects env
  | parseCreateVersionResponse => AtmosFilter.parseCreateVersionResponse env
  | createAccessToken => AtmosFilter.createAccessToken env
  | parseAtmosError | parseServiceInfoResponse | parseCreateResponse
  | parseReadObjectResponse | parseGetUserMetaResponse | parseGetAclResponse
  | parseGetInfoResponse | listVersions | parseListAccessTokensResponse
  | parseGetTokenInfoResponse => AtmosFilter.passOn

/-- `AtmosClient_add_default_filters` -/
def AtmosClient.addDefaultFilters (chain : List RestFilter) : List RestFilter :=
  let chain := add chain .executeCurlRequest
  let chain := add chain .signRequest
  let chain := add chain .setContentHeaders
  let chain := add chain .addUid
  let chain := add chain .addDate
  add chain .parseAtmosError

/-- `RestClient_execute_request`: the chain starts on a fresh trace. -/
def RestClient.executeRequest (env : Env) (chain : List RestFilter) (request : AtmosRequest)
    (response : AtmosResponse) : Option (Step Exchange Exchange) :=
  run (chain.map (RestFilter.before env)) { request, response, trace := [] }

end Atmos
