import Atmos.RequestFilters

/-!
# Operations

Every `AtmosClient_*` operation builds a chain on top of the default filters
and executes a request: one that the application has made and passes in, or
one it makes itself.  A `Call` is the request and the chain an operation
executes; `Operation` lists the operations with their arguments.

Some operations ignore that the `…_init` function of their request rejects the
path.  They go on with a request that was never initialised, which is no call.
-/

namespace Atmos

open ByteText FixedMemory FilterChain

/-- What an operation executes. -/
structure Call where
  request : AtmosRequest
  chain : List RestFilter
  deriving DecidableEq, Repr

/-- The execution of a call, up to the answer. -/
def Call.execute (env : Env) (call : Call) (response : AtmosResponse) :
    Option (Step Exchange Exchange) :=
  RestClient.executeRequest env call.chain call.request response

namespace AtmosClient

/-- A call with the filters that are added to the default ones, in the order
in which they are added. -/
def call (request : AtmosRequest) (filters : List RestFilter) : Call where
  request := request
  chain := filters.foldl add (addDefaultFilters [])

/-- A request without further fields. -/
def restRequest (parent : RestRequest) : AtmosRequest where
  parent := parent
  fields := .restRequest

def getServiceInformation : Call :=
  call (restRequest (RestRequest.init (bytes "/rest/service") .get)) [.parseServiceInfoResponse]

/-! ## Creating -/

def createObject (request : AtmosRequest) : Call :=
  call request [.parseCreateResponse, .setWriteHeaders]

/-- The body of the functions `…_simple`: none for NULL. -/
def setArrayBody (request : AtmosRequest) (data : Option (List UInt8))
    (contentType : Option CStr) : AtmosRequest :=
  match data with
  | none => request
  | some data => { request with parent := request.parent.setArrayBody data contentType }

/-- The body of the functions `…_file`: none for NULL. -/
def setFileBody (request : AtmosRequest) (f : Option FileStream) (contentLength : Int)
    (contentType : Option CStr) : AtmosRequest :=
  match f with
  | none => request
  | some f => { request with parent := request.parent.setFileBody f contentLength contentType }

def createObjectSimple (data : Option (List UInt8)) (contentType : Option CStr) : Call :=
  createObject (setArrayBody AtmosCreateObjectRequest.init data contentType)

def createObjectSimpleNs (path : CStr) (data : Option (List UInt8))
    (contentType : Option CStr) : Option Call :=
  (AtmosCreateObjectRequest.initNs path).map fun request =>
    createObject (setArrayBody request data contentType)

def createObjectSimpleKeypool (pool key : CStr) (data : Option (List UInt8))
    (contentType : Option CStr) : Call :=
  createObject (setArrayBody (AtmosCreateObjectRequest.initKeypool pool key) data contentType)

def createObjectFile (f : Option FileStream) (contentLength : Int)
    (contentType : Option CStr) : Call :=
  createObject (setFileBody AtmosCreateObjectRequest.init f contentLength contentType)

def createObjectFileNs (path : CStr) (f : Option FileStream) (contentLength : Int)
    (contentType : Option CStr) : Option Call :=
  (AtmosCreateObjectRequest.initNs path).map fun request =>
    createObject (setFileBody request f contentLength contentType)

def createObjectFileKeypool (pool key : CStr) (f : Option FileStream) (contentLength : Int)
    (contentType : Option CStr) : Call :=
  createObject
    (setFileBody (AtmosCreateObjectRequest.initKeypool pool key) f contentLength contentType)

/-! ## Deleting -/

def deleteObject (objectId : CStr) : Call :=
  call (restRequest (RestRequest.init (objectUri atmosPathMax objectId []) .delete)) []

def deleteObjectNs (path : CStr) : Call :=
  call (restRequest (RestRequest.init (namespaceUri (atmosPathMax + 16) path []) .delete)) []

def deleteObjectKeypool (pool key : CStr) : Call :=
  let request := RestRequest.init (keypoolUri (atmosPathMax + 16) key []) .delete
  call (restRequest (request.addHeader (poolHeader pool))) []

/-! ## Reading -/

def readObject (request : AtmosRequest) : Call :=
  call request [.setReadObjectHeaders, .parseReadObjectResponse]

def readObjectSimple (objectId : CStr) : Call :=
  readObject (AtmosReadObjectRequest.init objectId)

def readObjectSimpleNs (path : CStr) : Option Call :=
  (AtmosReadObjectRequest.initNs path).map readObject

def readObjectSimpleKeypool (pool key : CStr) : Call :=
  readObject (AtmosReadObjectRequest.initKeypool pool key)

def headObject (objectId : CStr) : Call :=
  readObject (AtmosReadObjectRequest.initHead objectId)

def headObjectNs (path : CStr) : Option Call :=
  (AtmosReadObjectRequest.initNsHead path).map readObject

def headObjectKeypool (pool key : CStr) : Call :=
  readObject (AtmosReadObjectRequest.initKeypoolHead pool key)

/-! ## Metadata -/

/-- The headers of the functions `AtmosClient_delete_user_meta…`. -/
def deletedMetaHeaders (env : Env) (metaNames : List CStr) (request : RestRequest) :
    RestRequest :=
  let request :=
    if env.atmos.enableUtf8Metadata then
      request.addHeader (headerLine atmosHeaderUtf8 (bytes "true"))
    else request
  AtmosUtil.setTagsHeader env.curl metaNames env.atmos.enableUtf8Metadata request

def deleteUserMeta (env : Env) (objectId : CStr) (metaNames : List CStr) : Call :=
  let uri := objectUri (atmosOidLength + 64) objectId (bytes "?metadata/user")
  call (restRequest (deletedMetaHeaders env metaNames (RestRequest.init uri .delete))) []

/-- The path follows a `/` of the format, as if it were a key. -/
def deleteUserMetaNs (env : Env) (path : CStr) (metaNames : List CStr) : Call :=
  let uri := keypoolUri (atmosPathMax + 64) path (bytes "?metadata/user")
  call (restRequest (deletedMetaHeaders env metaNames (RestRequest.init uri .delete))) []

def deleteUserMetaKeypool (env : Env) (pool key : CStr) (metaNames : List CStr) : Call :=
  let uri := keypoolUri (atmosPathMax + 64) key (bytes "?metadata/user")
  let request := deletedMetaHeaders env metaNames (RestRequest.init uri .delete)
  call (restRequest (request.addHeader (poolHeader pool))) []

def getUserMeta (request : AtmosRequest) : Call :=
  call request [.setGetUserMetaHeaders, .parseGetUserMetaResponse]

def getUserMetaSimple (objectId : CStr) : Call :=
  getUserMeta (AtmosGetUserMetaRequest.init objectId)

def getUserMetaSimpleNs (path : CStr) : Option Call :=
  (AtmosGetUserMetaRequest.initNs path).map getUserMeta

def getUserMetaSimpleKeypool (pool key : CStr) : Call :=
  getUserMeta (AtmosGetUserMetaRequest.initKeypool pool key)

def setUserMeta (request : AtmosRequest) : Call := call request [.setWriteHeaders]

def getSystemMeta (request : AtmosRequest) : Call := call request [.getSystemMetadata]

def getSystemMetaSimple (objectId : CStr) : Call :=
  getSystemMeta (AtmosGetSystemMetaRequest.init objectId)

def getSystemMetaSimpleNs (path : CStr) : Option Call :=
  (AtmosGetSystemMetaRequest.initNs path).map getSystemMeta

def getSystemMetaSimpleKeypool (pool key : CStr) : Call :=
  getSystemMeta (AtmosGetSystemMetaRequest.initKeypool pool key)

/-! ## Access control lists -/

def getAcl (objectId : CStr) : Call :=
  let uri := objectUri (atmosOidLength + 64) objectId (bytes "?acl")
  call (restRequest (RestRequest.init uri .get)) [.parseGetAclResponse]

def getAclNs (path : CStr) : Call :=
  let uri := namespaceUri (atmosPathMax + 64) path (bytes "?acl")
  call (restRequest (RestRequest.init uri .get)) [.parseGetAclResponse]

/-- The key follows the format directly, as if it were a path. -/
def getAclKeypool (pool key : CStr) : Call :=
  let uri := namespaceUri (atmosPathMax + 64) key (bytes "?acl")
  let request := RestRequest.init uri .get
  call (restRequest (request.addHeader (poolHeader pool))) [.parseGetAclResponse]

/-- The headers of the functions `AtmosClient_set_acl…`. -/
def setAclHeaders (acl : List AtmosAclEntry) (request : RestRequest) : Option RestRequest :=
  AtmosUtil.setAclHeader acl
    (request.addHeader (headerLine httpHeaderContentType (bytes "application/octet-stream")))

def setAcl (objectId : CStr) (acl : List AtmosAclEntry) : Option Call := do
  let uri := objectUri (atmosOidLength + 64) objectId (bytes "?acl")
  let request ← setAclHeaders acl (RestRequest.init uri .post)
  some (call (restRequest request) [.parseGetAclResponse])

def setAclNs (path : CStr) (acl : List AtmosAclEntry) : Option Call := do
  let uri := namespaceUri (atmosPathMax + 64) path (bytes "?acl")
  let request ← setAclHeaders acl (RestRequest.init uri .post)
  some (call (restRequest request) [.parseGetAclResponse])

def setAclKeypool (pool key : CStr) (acl : List AtmosAclEntry) : Option Call := do
  let uri := keypoolUri (atmosPathMax + 64) key (bytes "?acl")
  let request ← setAclHeaders acl (RestRequest.init uri .post)
  some (call (restRequest (request.addHeader (poolHeader pool))) [.parseGetAclResponse])

/-! ## Updating -/

def updateObject (request : AtmosRequest) : Call :=
  call request [.setWriteHeaders, .updateObject]

/-- An empty array is no body here. -/
def updateData (data : Option (List UInt8)) : Option (List UInt8) :=
  data.filter fun data => 0 < data.length

/-- Nor is an empty file. -/
def updateFile (f : Option FileStream) (contentLength : Int) : Option FileStream :=
  f.filter fun _ => 0 < contentLength

def updateObjectSimple (objectId : CStr) (data : Option (List UInt8))
    (contentType : Option CStr) : Call :=
  updateObject (setArrayBody (AtmosUpdateObjectRequest.init objectId) (updateData data)
    contentType)

def updateObjectSimpleNs (path : CStr) (data : Option (List UInt8))
    (contentType : Option CStr) : Option Call :=
  (AtmosUpdateObjectRequest.initNs path).map fun request =>
    updateObject (setArrayBody request (updateData data) contentType)

def updateObjectSimpleKeypool (pool key : CStr) (data : Option (List UInt8))
    (contentType : Option CStr) : Call :=
  updateObject (setArrayBody (AtmosUpdateObjectRequest.initKeypool pool key)
    (updateData data) contentType)

def updateObjectFile (objectId : CStr) (f : Option FileStream) (contentLength : Int)
    (contentType : Option CStr) : Call :=
  updateObject (setFileBody (AtmosUpdateObjectRequest.init objectId)
    (updateFile f contentLength) contentLength contentType)

def updateObjectFileNs (path : CStr) (f : Option FileStream) (contentLength : Int)
    (contentType : Option CStr) : Option Call :=
  (AtmosUpdateObjectRequest.initNs path).map fun request =>
    updateObject (setFileBody request (updateFile f contentLength) contentLength contentType)

def updateObjectFileKeypool (pool key : CStr) (f : Option FileStream) (contentLength : Int)
    (contentType : Option CStr) : Call :=
  updateObject (setFileBody (AtmosUpdateObjectRequest.initKeypool pool key)
    (updateFile f contentLength) contentLength contentType)

/-! ## Information and renaming -/

def getObjectInfo (objectId : CStr) : Call :=
  let uri := objectUri (atmosOidLength + 64) objectId (bytes "?info")
  call (restRequest (RestRequest.init uri .get)) [.parseGetInfoResponse]

def getObjectInfoNs (path : CStr) : Call :=
  let uri := namespaceUri (atmosPathMax + 64) path (bytes "?info")
  call (restRequest (RestRequest.init uri .get)) [.parseGetInfoResponse]

def getObjectInfoKeypool (pool key : CStr) : Call :=
  let uri := keypoolUri (atmosPathMax + 64) key (bytes "?info")
  let request := RestRequest.init uri .get
  call (restRequest (request.addHeader (poolHeader pool))) [.parseGetInfoResponse]

def renameObject (source destination : CStr) (force : Bool) : Call :=
  let uri := namespaceUri (atmosPathMax + 32) source (bytes "?rename")
  let request := RestRequest.init uri .post
  let request := request.addHeader
    (snprintf (atmosPathMax + 32) (headerLine atmosHeaderPath destination))
  let request := if force then request.addHeader (headerLine atmosHeaderForce (bytes "true"))
    else request
  let request := request.addHeader
    (headerLine httpHeaderContentType (bytes "application/octet-stream"))
  call (restRequest request) []

/-! ## Listing -/

def listDirectory (request : AtmosRequest) : Call :=
  call request [.parseReadObjectResponse, .listDirectory, .setPaginationHeaders]

def getListableTags (request : AtmosRequest) : Call :=
  call request [.setPaginationHeaders, .getListableTags]

def listObjects (request : AtmosRequest) : Call :=
  call request [.listObjects, .setPaginationHeaders]

/-! ## Versions -/

def createVersion (objectId : CStr) : Call :=
  call (AtmosCreateVersionRequest.init objectId) [.parseCreateVersionResponse]

def listVersions (request : AtmosRequest) : Call :=
  call request [.listVersions, .setPaginationHeaders]

def deleteVersion (versionId : CStr) : Call :=
  let uri := objectUri atmosPathMax versionId (bytes "?versions")
  call (restRequest (RestRequest.init uri .delete)) []

def restoreVersion (objectId versionId : CStr) : Call :=
  let uri := objectUri atmosPathMax objectId (bytes "?versions")
  let request := RestRequest.init uri .put
  let request := request.addHeader
    (snprintf atmosSimpleHeaderMax (headerLine atmosHeaderVersionOid versionId))
  let request := request.setArrayBody [] (some (bytes "application/octet-stream"))
  call (restRequest request) []

/-! ## Access tokens -/

def createAccessToken (request : AtmosRequest) : Call := call request [.createAccessToken]

def deleteAccessToken (tokenId : CStr) : Call :=
  let uri := snprintf atmosPathMax (bytes "/rest/accesstokens/" ++ tokenId)
  call (restRequest (RestRequest.init uri .delete)) []

def listAccessTokens (request : AtmosRequest) : Call :=
  call request [.setPaginationHeaders, .parseListAccessTokensResponse]

def getAccessTokenInfo (tokenId : CStr) : Call :=
  let uri := snprintf atmosPathMax (bytes "/rest/accesstokens/" ++ tokenId ++ bytes "?info")
  call (restRequest (RestRequest.init uri .get)) [.parseGetTokenInfoResponse]

end AtmosClient

/-! ## All operations -/

/-- The operations that execute a chain, with their arguments. -/
inductive Operation where
  | getServiceInformation
  | createObject (request : AtmosRequest)
  | createObjectSimple (data : Option (List UInt8)) (contentType : Option CStr)
  | createObjectSimpleNs (path : CStr) (data : Option (List UInt8)) (contentType : Option CStr)
  | createObjectSimpleKeypool (pool key : CStr) (data : Option (List UInt8))
      (contentType : Option CStr)
  | createObjectFile (f : Option FileStream) (contentLength : Int) (contentType : Option CStr)
  | createObjectFileNs (path : CStr) (f : Option FileStream) (contentLength : Int)
      (contentType : Option CStr)
  | createObjectFileKeypool (pool key : CStr) (f : Option FileStream) (contentLength : Int)
      (contentType : Option CStr)
  | deleteObject (objectId : CStr)
  | deleteObjectNs (path : CStr)
  | deleteObjectKeypool (pool key : CStr)
  | readObject (request : AtmosRequest)
  | readObjectSimple (objectId : CStr)
  | readObjectSimpleNs (path : CStr)
  | readObjectSimpleKeypool (pool key : CStr)
  | headObject (objectId : CStr)
  | headObjectNs (path : CStr)
  | headObjectKeypool (pool key : CStr)
  | deleteUserMeta (objectId : CStr) (metaNames : List CStr)
  | deleteUserMetaNs (path : CStr) (metaNames : List CStr)
  | deleteUserMetaKeypool (pool key : CStr) (metaNames : List CStr)
  | getUserMeta (request : AtmosRequest)
  | getUserMetaSimple (objectId : CStr)
  | getUserMetaSimpleNs (path : CStr)
  | getUserMetaSimpleKeypool (pool key : CStr)
  | setUserMeta (request : AtmosRequest)
  | getSystemMeta (request : AtmosRequest)
  | getSystemMetaSimple (objectId : CStr)
  | getSystemMetaSimpleNs (path : CStr)
  | getSystemMetaSimpleKeypool (pool key : CStr)
  | getAcl (objectId : CStr)
  | getAclNs (path : CStr)
  | getAclKeypool (pool key : CStr)
  | setAcl (objectId : CStr) (acl : List AtmosAclEntry)
  | setAclNs (path : CStr) (acl : List AtmosAclEntry)
  | setAclKeypool (pool key : CStr) (acl : List AtmosAclEntry)
  | updateObject (request : AtmosRequest)
  | updateObjectSimple (objectId : CStr) (data : Option (List UInt8))
      (contentType : Option CStr)
  | updateObjectSimpleNs (path : CStr) (data : Option (List UInt8)) (contentType : Option CStr)
  | updateObjectSimpleKeypool (pool key : CStr) (data : Option (List UInt8))
      (contentType : Option CStr)
  | updateObjectFile (objectId : CStr) (f : Option FileStream) (contentLength : Int)
      (contentType : Option CStr)
  | updateObjectFileNs (path : CStr) (f : Option FileStream) (contentLength : Int)
      (contentType : Option CStr)
  | updateObjectFileKeypool (pool key : CStr) (f : Option FileStream) (contentLength : Int)
      (contentType : Option CStr)
  | getObjectInfo (objectId : CStr)
  | getObjectInfoNs (path : CStr)
  | getObjectInfoKeypool (pool key : CStr)
  | renameObject (source destination : CStr) (force : Bool)
  | listDirectory (request : AtmosRequest)
  | getListableTags (request : AtmosRequest)
  | listObjects (request : AtmosRequest)
  | createVersion (objectId : CStr)
  | listVersions (request : AtmosRequest)
  | deleteVersion (versionId : CStr)
  | restoreVersion (objectId versionId : CStr)
  | createAccessToken (request : AtmosRequest)
  | deleteAccessToken (tokenId : CStr)
  | listAccessTokens (request : AtmosRequest)
  | getAccessTokenInfo (tokenId : CStr)
  deriving DecidableEq, Repr

open Operation in
/-- The call an operation makes; none where it goes on with a request that is
not initialised, or reads the NULL text of an invalid permission. -/
def Operation.call (env : Env) : Operation → Option Call
  | getServiceInformation => some AtmosClient.getServiceInformation
  | createObject request => some (AtmosClient.createObject request)
  | createObjectSimple data contentType => some (AtmosClient.createObjectSimple data contentType)
  | createObjectSimpleNs path data contentType =>
      AtmosClient.createObjectSimpleNs path data contentType
  | createObjectSimpleKeypool pool key data contentType =>
      some (AtmosClient.createObjectSimpleKeypool pool key data contentType)
  | createObjectFile f contentLength contentType =>
      some (AtmosClient.createObjectFile f contentLength contentType)
  | createObjectFileNs path f contentLength contentType =>
      AtmosClient.createObjectFileNs path f contentLength contentType
  | createObjectFileKeypool pool key f contentLength contentType =>
      some (AtmosClient.createObjectFileKeypool pool key f contentLength contentType)
  | deleteObject objectId => some (AtmosClient.deleteObject objectId)
  | deleteObjectNs path => some (AtmosClient.deleteObjectNs path)
  | deleteObjectKeypool pool key => some (AtmosClient.deleteObjectKeypool pool key)
  | readObject request => some (AtmosClient.readObject request)
  | readObjectSimple objectId => some (AtmosClient.readObjectSimple objectId)
  | readObjectSimpleNs path => AtmosClient.readObjectSimpleNs path
  | readObjectSimpleKeypool pool key => some (AtmosClient.readObjectSimpleKeypool pool key)
  | headObject objectId => some (AtmosClient.headObject objectId)
  | headObjectNs path => AtmosClient.headObjectNs path
  | headObjectKeypool pool key => some (AtmosClient.headObjectKeypool pool key)
  | deleteUserMeta objectId metaNames => some (AtmosClient.deleteUserMeta env objectId metaNames)
  | deleteUserMetaNs path metaNames => some (AtmosClient.deleteUserMetaNs env path metaNames)
  | deleteUserMetaKeypool pool key metaNames =>
      some (AtmosClient.deleteUserMetaKeypool env pool key metaNames)
  | getUserMeta request => some (AtmosClient.getUserMeta request)
  | getUserMetaSimple objectId => some (AtmosClient.getUserMetaSimple objectId)
  | getUserMetaSimpleNs path => AtmosClient.getUserMetaSimpleNs path
  | getUserMetaSimpleKeypool pool key => some (AtmosClient.getUserMetaSimpleKeypool pool key)
  | setUserMeta request => some (AtmosClient.setUserMeta request)
  | getSystemMeta request => some (AtmosClient.getSystemMeta request)
  | getSystemMetaSimple objectId => some (AtmosClient.getSystemMetaSimple objectId)
  | getSystemMetaSimpleNs path => AtmosClient.getSystemMetaSimpleNs path
  | getSystemMetaSimpleKeypool pool key => some (AtmosClient.getSystemMetaSimpleKeypool pool key)
  | getAcl objectId => some (AtmosClient.getAcl objectId)
  | getAclNs path => some (AtmosClient.getAclNs path)
  | getAclKeypool pool key => some (AtmosClient.getAclKeypool pool key)
  | setAcl objectId acl => AtmosClient.setAcl objectId acl
  | setAclNs path acl => AtmosClient.setAclNs path acl
  | setAclKeypool pool key acl => AtmosClient.setAclKeypool pool key acl
  | updateObject request => some (AtmosClient.updateObject request)
  | updateObjectSimple objectId data contentType =>
      some (AtmosClient.updateObjectSimple objectId data contentType)
  | updateObjectSimpleNs path data contentType =>
      AtmosClient.updateObjectSimpleNs path data contentType
  | updateObjectSimpleKeypool pool key data contentType =>
      some (AtmosClient.updateObjectSimpleKeypool pool key data contentType)
  | updateObjectFile objectId f contentLength contentType =>
      some (AtmosClient.updateObjectFile objectId f contentLength contentType)
  | updateObjectFileNs path f contentLength contentType =>
      AtmosClient.updateObjectFileNs path f contentLength contentType
  | updateObjectFileKeypool pool key f contentLength contentType =>
      some (AtmosClient.updateObjectFileKeypool pool key f contentLength contentType)
  | getObjectInfo objectId => some (AtmosClient.getObjectInfo objectId)
  | getObjectInfoNs path => some (AtmosClient.getObjectInfoNs path)
  | getObjectInfoKeypool pool key => some (AtmosClient.getObjectInfoKeypool pool key)
  | renameObject source destination force =>
      some (AtmosClient.renameObject source destination force)
  | listDirectory request => some (AtmosClient.listDirectory request)
  | getListableTags request => some (AtmosClient.getListableTags request)
  | listObjects request => some (AtmosClient.listObjects request)
  | createVersion objectId => some (AtmosClient.createVersion objectId)
  | listVersions request => some (AtmosClient.listVersions request)
  | deleteVersion versionId => some (AtmosClient.deleteVersion versionId)
  | restoreVersion objectId versionId => some (AtmosClient.restoreVersion objectId versionId)
  | createAccessToken request => some (AtmosClient.createAccessToken request)
  | deleteAccessToken tokenId => some (AtmosClient.deleteAccessToken tokenId)
  | listAccessTokens request => some (AtmosClient.listAccessTokens request)
  | getAccessTokenInfo tokenId => some (AtmosClient.getAccessTokenInfo tokenId)

end Atmos
