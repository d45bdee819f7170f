import Atmos.AclHeaders
import Atmos.Digests
import Atmos.MetadataHeaders

/-!
# Request objects

A request object is a `RestRequest` with further fields behind it.  The
functions `…_init` give it its method, its URI and, in a keypool, the pool
header; the application then sets the fields and executes it.

The three ways to name an object, by its identifier, by a path and by a key in
a pool, come with a format and a buffer of their own in every function.  The
formats are `objectUri`, `namespaceUri` and `keypoolUri`; the buffer and the
suffix are written where the source has them.
-/

namespace Atmos

open ByteText FixedMemory

/-! ## Formats -/

/-- `"/rest/objects/%s"` and a suffix -/
def objectUri (size : Nat) (objectId suffix : CStr) : CStr :=
  snprintf size (bytes "/rest/objects/" ++ objectId ++ suffix)

/-- `"/rest/namespace%s"` and a suffix -/
def namespaceUri (size : Nat) (path suffix : CStr) : CStr :=
  snprintf size (bytes "/rest/namespace" ++ path ++ suffix)

/-- `"/rest/namespace/%s"` and a suffix -/
def keypoolUri (size : Nat) (key suffix : CStr) : CStr :=
  snprintf size (bytes "/rest/namespace/" ++ key ++ suffix)

/-- `ATMOS_HEADER_POOL ": %s"`, in a buffer of `ATMOS_PATH_MAX` everywhere. -/
def poolHeader (pool : CStr) : CStr :=
  snprintf atmosPathMax (headerLine atmosHeaderPool pool)

/-! ## Fields -/

/-- `AtmosWriteObjectRequest`, the fields behind its parent.  A create request
and a request to set metadata have no further fields that are read. -/
structure AtmosWriteObjectRequest where
  metadata : List AtmosMetadata
  listableMeta : List AtmosMetadata
  acl : List AtmosAclEntry
  checksum : Option AtmosChecksum
  deriving DecidableEq, Repr

/-- A zeroed `AtmosWriteObjectRequest`. -/
def AtmosWriteObjectRequest.zero : AtmosWriteObjectRequest where
  metadata := []
  listableMeta := []
  acl := []
  checksum := none

/-- The fields `range_start` and `range_end` of a read or update request. -/
structure ObjectRange where
  rangeStart : Int64
  rangeEnd : Int64
  deriving DecidableEq, Repr

/-- The range of a new request: the whole object. -/
def ObjectRange.whole : ObjectRange where
  rangeStart := -1
  rangeEnd := -1

/-- `AtmosPaginatedRequest`, the fields behind its parent. -/
structure AtmosPaginatedRequest where
  limit : Int32
  token : CStr
  /-- The token is a string in a field of `ATMOS_TOKEN_MAX` bytes. -/
  token_length : token.length < atmosTokenMax
  deriving DecidableEq, Repr

/-- A zeroed `AtmosPaginatedRequest`. -/
def AtmosPaginatedRequest.zero : AtmosPaginatedRequest where
  limit := 0
  token := []
  token_length := by decide

/-- The fields of a listing that choose the metadata of its entries. -/
structure ListedMetadata where
  includeMeta : Bool
  userTags : List CStr
  systemTags : List CStr
  deriving DecidableEq, Repr

/-- A listing without metadata. -/
def ListedMetadata.zero : ListedMetadata where
  includeMeta := false
  userTags := []
  systemTags := []

/-- The field `parent_tag`, a string in `ATMOS_PATH_MAX` bytes. -/
structure ParentTag where
  text : CStr
  length_lt : text.length < atmosPathMax
  deriving DecidableEq, Repr

/-- A policy, known by what `Atmos_policyType_marshal` makes of it. -/
structure AtmosPolicy where
  marshal : Option CStr
  deriving DecidableEq, Repr

/-- `AtmosCreateAccessTokenRequest`, the fields behind its parent. -/
structure AtmosCreateAccessTokenRequest where
  objectId : CStr
  path : CStr
  metadata : List AtmosMetadata
  listableMeta : List AtmosMetadata
  acl : List AtmosAclEntry
  policy : Option AtmosPolicy
  deriving DecidableEq, Repr

/-- The class of a request object, with its fields. -/
inductive RequestFields where
  | restRequest
  | writeObject (write : AtmosWriteObjectRequest)
  | updateObject (write : AtmosWriteObjectRequest) (range : ObjectRange)
  | readObject (range : ObjectRange)
  | getUserMeta (tags : List CStr)
  | getSystemMeta (tags : List CStr)
  | paginated (page : AtmosPaginatedRequest)
  | listDirectory (page : AtmosPaginatedRequest) (listed : ListedMetadata)
  | listObjects (page : AtmosPaginatedRequest) (tag : CStr) (listed : ListedMetadata)
  | getListableTags (page : AtmosPaginatedRequest) (parentTag : ParentTag)
  | createAccessToken (token : AtmosCreateAccessTokenRequest)
  deriving DecidableEq, Repr

namespace RequestFields

/-- The cast to `AtmosWriteObjectRequest*`. -/
def asWrite : RequestFields → Option AtmosWriteObjectRequest
  | writeObject write => some write
  | updateObject write _ => some write
  | _ => none

/-- Set the field `checksum` behind that cast. -/
def setChecksum (checksum : AtmosChecksum) : RequestFields → RequestFields
  | writeObject write => writeObject { write with checksum := some checksum }
  | updateObject write range => updateObject { write with checksum := some checksum } range
  | fields => fields

/-- The cast to `AtmosPaginatedRequest*`. -/
def asPaginated : RequestFields → Option AtmosPaginatedRequest
  | paginated page => some page
  | listDirectory page _ => some page
  | listObjects page _ _ => some page
  | getListableTags page _ => some page
  | _ => none

end RequestFields

/-- A request object. -/
structure AtmosRequest where
  parent : RestRequest
  fields : RequestFields
  deriving DecidableEq, Repr

/-- A request object after the application has set its fields and its body. -/
def AtmosRequest.configure (request : AtmosRequest) (fields : RequestFields)
    (body : Option RequestBody) : AtmosRequest where
  parent := { request.parent with requestBody := body }
  fields := fields

/-! ## Initialisation -/

namespace AtmosRequest

/-- An `…_init` function for an identifier. -/
def initObject (method : HttpMethod) (size : Nat) (suffix : CStr) (fields : RequestFields)
    (objectId : CStr) : AtmosRequest where
  parent := RestRequest.init (objectUri size objectId suffix) method
  fields := fields

/-- An `…_init_ns` function: NULL for a path that does not start with `/`. -/
def initNs (method : HttpMethod) (size : Nat) (suffix : CStr) (fields : RequestFields)
    (path : CStr) : Option AtmosRequest :=
  if path.head? ≠ some 47 then none
  else some { parent := RestRequest.init (namespaceUri size path suffix) method, fields }

/-- An `…_init_keypool` function. -/
def initKeypool (method : HttpMethod) (size : Nat) (suffix : CStr) (fields : RequestFields)
    (pool key : CStr) : AtmosRequest where
  parent := (RestRequest.init (keypoolUri size key suffix) method).addHeader (poolHeader pool)
  fields := fields

end AtmosRequest

namespace AtmosCreateObjectRequest

def init : AtmosRequest where
  parent := RestRequest.init (bytes "/rest/objects") .post
  fields := .writeObject .zero

def initNs : CStr → Option AtmosRequest :=
  AtmosRequest.initNs .post atmosPathMax [] (.writeObject .zero)

def initKeypool : CStr → CStr → AtmosRequest :=
  AtmosRequest.initKeypool .post atmosPathMax [] (.writeObject .zero)

end AtmosCreateObjectRequest

namespace AtmosReadObjectRequest

def init : CStr → AtmosRequest :=
  AtmosRequest.initObject .get (15 + atmosOidLength) [] (.readObject .whole)

def initNs : CStr → Option AtmosRequest :=
  AtmosRequest.initNs .get (atmosPathMax + 15) [] (.readObject .whole)

def initKeypool : CStr → CStr → AtmosRequest :=
  AtmosRequest.initKeypool .get (atmosPathMax + 15) [] (.readObject .whole)

def initHead : CStr → AtmosRequest :=
  AtmosRequest.initObject .head (15 + atmosOidLength) [] (.readObject .whole)

def initNsHead : CStr → Option AtmosRequest :=
  AtmosRequest.initNs .head (atmosPathMax + 15) [] (.readObject .whole)

def initKeypoolHead : CStr → CStr → AtmosRequest :=
  AtmosRequest.initKeypool .head (atmosPathMax + 15) [] (.readObject .whole)

end AtmosReadObjectRequest

namespace AtmosGetUserMetaRequest

def init : CStr → AtmosRequest :=
  AtmosRequest.initObject .get (atmosOidLength + 64) (bytes "?metadata/user") (.getUserMeta [])

def initNs : CStr → Option AtmosRequest :=
  AtmosRequest.initNs .get (atmosPathMax + 64) (bytes "?metadata/user") (.getUserMeta [])

def initKeypool : CStr → CStr → AtmosRequest :=
  AtmosRequest.initKeypool .get (atmosPathMax + 64) (bytes "?metadata/user") (.getUserMeta [])

end AtmosGetUserMetaRequest

namespace AtmosSetUserMetaRequest

def init : CStr → AtmosRequest :=
  AtmosRequest.initObject .post (atmosOidLength + 64) (bytes "?metadata/user")
    (.writeObject .zero)

def initNs : CStr → Option AtmosRequest :=
  AtmosRequest.initNs .post (atmosPathMax + 64) (bytes "?metadata/user") (.writeObject .zero)

def initKeypool : CStr → CStr → AtmosRequest :=
  AtmosRequest.initKeypool .post (atmosPathMax + 64) (bytes "?metadata/user")
    (.writeObject .zero)

end AtmosSetUserMetaRequest

namespace AtmosGetSystemMetaRequest

def init : CStr → AtmosRequest :=
  AtmosRequest.initObject .get (atmosOidLength + 64) (bytes "?metadata/system")
    (.getSystemMeta [])

def initNs : CStr → Option AtmosRequest :=
  AtmosRequest.initNs .get (atmosPathMax + 64) (bytes "?metadata/system") (.getSystemMeta [])

def initKeypool : CStr → CStr → AtmosRequest :=
  AtmosRequest.initKeypool .get (atmosPathMax + 64) (bytes "?metadata/system")
    (.getSystemMeta [])

end AtmosGetSystemMetaRequest

namespace AtmosUpdateObjectRequest

def init : CStr → AtmosRequest :=
  AtmosRequest.initObject .put (atmosOidLength + 64) [] (.updateObject .zero .whole)

def initNs : CStr → Option AtmosRequest :=
  AtmosRequest.initNs .put (atmosPathMax + 64) [] (.updateObject .zero .whole)

def initKeypool : CStr → CStr → AtmosRequest :=
  AtmosRequest.initKeypool .put (atmosPathMax + 64) [] (.updateObject .zero .whole)

end AtmosUpdateObjectRequest

/-- `AtmosListDirectoryRequest_init`, which also wants a `/` at the end. -/
def AtmosListDirectoryRequest.init (path : CStr) : Option AtmosRequest :=
  if path.head? ≠ some 47 then none
  else if path.getLast? ≠ some 47 then none
  else some
    { parent := RestRequest.init (namespaceUri (atmosPathMax + 15) path []) .get
      fields := .listDirectory .zero .zero }

/-- `AtmosListObjectsRequest_init`; `none` where the tag leaves its field
without a terminator. -/
def AtmosListObjectsRequest.init (tag : CStr) : Option AtmosRequest :=
  if tag.length < atmosPathMax then some
    { parent := RestRequest.init (bytes "/rest/objects") .get
      fields := .listObjects .zero tag .zero }
  else none

/-- `AtmosGetListableTagsRequest_init`, with an empty tag for NULL; `none`
where the tag leaves its field without a terminator. -/
def AtmosGetListableTagsRequest.init (parentTag : CStr) : Option AtmosRequest :=
  if h : parentTag.length < atmosPathMax then some
    { parent := RestRequest.init (bytes "/rest/objects?listabletags") .get
      fields := .getListableTags .zero ⟨parentTag, h⟩ }
  else none

/-- `AtmosCreateVersionRequest_init` -/
def AtmosCreateVersionRequest.init : CStr → AtmosRequest :=
  AtmosRequest.initObject .post atmosPathMax (bytes "?versions") .restRequest

/-- `AtmosListVersionsRequest_init` -/
def AtmosListVersionsRequest.init : CStr → AtmosRequest :=
  AtmosRequest.initObject .get atmosPathMax (bytes "?versions") (.paginated .zero)

/-- `AtmosListAccessTokensRequest_init` -/
def AtmosListAccessTokensRequest.init : AtmosRequest where
  parent := RestRequest.init (bytes "/rest/accesstokens") .get
  fields := .paginated .zero

/-- `AtmosCreateAccessTokenRequest_init`, and with an identifier or a path
`AtmosCreateAccessTokenRequest_init_obj` and `_ns`. -/
def AtmosCreateAccessTokenRequest.init (objectId path : CStr) : AtmosRequest where
  parent := RestRequest.init (bytes "/rest/accesstokens") .post
  fields := .createAccessToken
    { objectId, path, metadata := [], listableMeta := [], acl := [], policy := none }

end Atmos
