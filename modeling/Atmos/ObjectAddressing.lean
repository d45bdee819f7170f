import Atmos.ShareableUrl
import Atmos.SignatureCoverage

/-!
# Addressing an object

An object in the namespace is addressed by a path, and one in a keypool by a
pool and a key.  Every operation writes the URI with a format of its own.

* `addressesPath_uri` — which operations write `/rest/namespace`, the path and
  a suffix;
* `pathOperation_uri_iff` — all of them but the one that deletes user metadata;
* `addressesKey_uri`, `keyOperation_uri_iff` — the same for keys, where the
  operation that gets an ACL is the other one.
-/

namespace Atmos

open ByteText FixedMemory FilterChain

/-! ## Formats -/

theorem namespaceUri_fits {size : Nat} {path suffix : CStr}
    (h : 15 + path.length + suffix.length < size) :
    namespaceUri size path suffix = bytes "/rest/namespace" ++ path ++ suffix := by
  have hprefix : (bytes "/rest/namespace").length = 15 := rfl
  apply snprintf_of_length_lt
  rw [List.length_append, List.length_append, hprefix]
  exact h

theorem keypoolUri_fits {size : Nat} {key suffix : CStr}
    (h : 16 + key.length + suffix.length < size) :
    keypoolUri size key suffix = bytes "/rest/namespace/" ++ key ++ suffix := by
  have hprefix : (bytes "/rest/namespace/").length = 16 := rfl
  apply snprintf_of_length_lt
  rw [List.length_append, List.length_append, hprefix]
  exact h

theorem initNs_uri {method : HttpMethod} {size : Nat} {suffix : CStr} {fields : RequestFields}
    {path : CStr} {request : AtmosRequest}
    (h : AtmosRequest.initNs method size suffix fields path = some request) :
    request.parent.uri = namespaceUri size path suffix := by
  unfold AtmosRequest.initNs at h
  split at h
  · cases h
  · cases h
    rfl

theorem listDirectory_init_uri {path : CStr} {request : AtmosRequest}
    (h : AtmosListDirectoryRequest.init path = some request) :
    request.parent.uri = namespaceUri (atmosPathMax + 15) path [] := by
  unfold AtmosListDirectoryRequest.init at h
  split at h
  · cases h
  · split at h
    · cases h
    · cases h
      rfl

/-! ## Operations on paths -/

/-- The operations that address an object by its path, with the suffix of their
URI. -/
inductive AddressesPath (path : CStr) : Operation → CStr → Prop
  | createObject {request : AtmosRequest} (fields : RequestFields) (body : Option RequestBody)
      (h : AtmosCreateObjectRequest.initNs path = some request) :
      AddressesPath path (.createObject (request.configure fields body)) []
  | createObjectSimple (data : Option (List UInt8)) (contentType : Option CStr) :
      AddressesPath path (.createObjectSimpleNs path data contentType) []
  | createObjectFile (f : Option FileStream) (contentLength : Int) (contentType : Option CStr) :
      AddressesPath path (.createObjectFileNs path f contentLength contentType) []
  | readObject {request : AtmosRequest} (fields : RequestFields) (body : Option RequestBody)
      (h : AtmosReadObjectRequest.initNs path = some request) :
      AddressesPath path (.readObject (request.configure fields body)) []
  | readObjectSimple : AddressesPath path (.readObjectSimpleNs path) []
  | headObject {request : AtmosRequest} (fields : RequestFields) (body : Option RequestBody)
      (h : AtmosReadObjectRequest.initNsHead path = some request) :
      AddressesPath path (.readObject (request.configure fields body)) []
  | headObjectSimple : AddressesPath path (.headObjectNs path) []
  | updateObject {request : AtmosRequest} (fields : RequestFields) (body : Option RequestBody)
      (h : AtmosUpdateObjectRequest.initNs path = some request) :
      AddressesPath path (.updateObject (request.configure fields body)) []
  | updateObjectSimple (data : Option (List UInt8)) (contentType : Option CStr) :
      AddressesPath path (.updateObjectSimpleNs path data contentType) []
  | updateObjectFile (f : Option FileStream) (contentLength : Int) (contentType : Option CStr) :
      AddressesPath path (.updateObjectFileNs path f contentLength contentType) []
  | deleteObject : AddressesPath path (.deleteObjectNs path) []
  | setUserMeta {request : AtmosRequest} (fields : RequestFields) (body : Option RequestBody)
      (h : AtmosSetUserMetaRequest.initNs path = some request) :
      AddressesPath path (.setUserMeta (request.configure fields body)) (bytes "?metadata/user")
  | getUserMeta {request : AtmosRequest} (fields : RequestFields) (body : Option RequestBody)
      (h : AtmosGetUserMetaRequest.initNs path = some request) :
      AddressesPath path (.getUserMeta (request.configure fields body)) (bytes "?metadata/user")
  | getUserMetaSimple : AddressesPath path (.getUserMetaSimpleNs path) (bytes "?metadata/user")
  | deleteUserMeta (metaNames : List CStr) :
      AddressesPath path (.deleteUserMetaNs path metaNames) (bytes "?metadata/user")
  | getSystemMeta {request : AtmosRequest} (fields : RequestFields) (body : Option RequestBody)
      (h : AtmosGetSystemMetaRequest.initNs path = some request) :
      AddressesPath path (.getSystemMeta (request.configure fields body))
        (bytes "?metadata/system")
  | getSystemMetaSimple :
      AddressesPath path (.getSystemMetaSimpleNs path) (bytes "?metadata/system")
  | getAcl : AddressesPath path (.getAclNs path) (bytes "?acl")
  | setAcl (acl : List AtmosAclEntry) : AddressesPath path (.setAclNs path acl) (bytes "?acl")
  | getObjectInfo : AddressesPath path (.getObjectInfoNs path) (bytes "?info")
  | renameObject (destination : CStr) (force : Bool) :
      AddressesPath path (.renameObject path destination force) (bytes "?rename")
  | listDirectory {request : AtmosRequest} (fields : RequestFields) (body : Option RequestBody)
      (h : AtmosListDirectoryRequest.init path = some request) :
      AddressesPath path (.listDirectory (request.configure fields body)) []

theorem setArrayBody_uri (request : AtmosRequest) (data : Option (List UInt8))
    (contentType : Option CStr) :
    (AtmosClient.setArrayBody request data contentType).parent.uri = request.parent.uri := by
  cases data <;> rfl

theorem setArrayBody_headers (request : AtmosRequest) (data : Option (List UInt8))
    (contentType : Option CStr) :
    (AtmosClient.setArrayBody request data contentType).parent.headers =
      request.parent.headers := by
  cases data <;> rfl

theorem setFileBody_uri (request : AtmosRequest) (f : Option FileStream)
    (contentLength : Int) (contentType : Option CStr) :
    (AtmosClient.setFileBody request f contentLength contentType).parent.uri =
      request.parent.uri := by
  cases f <;> rfl

theorem setFileBody_headers (request : AtmosRequest) (f : Option FileStream)
    (contentLength : Int) (contentType : Option CStr) :
    (AtmosClient.setFileBody request f contentLength contentType).parent.headers =
      request.parent.headers := by
  cases f <;> rfl

/-- The URI of a request that goes on with its ACL headers. -/
theorem setAclHeaders_eq_some {acl : List AtmosAclEntry} {request request' : RestRequest}
    (h : AtmosClient.setAclHeaders acl request = some request') :
    request'.uri = request.uri ∧ request'.headers = request.headers ++
      (⟨httpHeaderContentType, bytes "application/octet-stream"⟩ :: aclHeaders acl).map
        Header.line := by
  rw [setAclHeader_headers h]
  refine ⟨rfl, ?_⟩
  rw [RestRequest.addHeader_headers, List.append_assoc]
  rfl

/-- The bound that is passed to `snprintf` for the URI of an operation on a
path. -/
def Operation.uriBound : Operation → Nat
  | .createObject _ | .createObjectSimpleNs .. | .createObjectFileNs .. => atmosPathMax
  | .readObject _ | .readObjectSimpleNs _ | .headObjectNs _ | .listDirectory _ =>
      atmosPathMax + 15
  | .deleteObjectNs _ => atmosPathMax + 16
  | .renameObject .. => atmosPathMax + 32
  | _ => atmosPathMax + 64

/-- **The URI of an operation on a path**, where it is not the one that deletes
user metadata: written with the operation's own bound. -/
theorem addressesPath_format {env : Env} {path suffix : CStr} {op : Operation} {call : Call}
    (hop : AddressesPath path op suffix)
    (hother : ∀ metaNames, op ≠ .deleteUserMetaNs path metaNames)
    (hcall : op.call env = some call) :
    call.request.parent.uri = namespaceUri op.uriBound path suffix := by
  cases hop with
  | createObject fields body h | readObject fields body h | headObject fields body h
  | updateObject fields body h | setUserMeta fields body h | getUserMeta fields body h
  | getSystemMeta fields body h =>
      cases hcall
      have huri := initNs_uri h
      exact huri
  | createObjectSimple data contentType =>
      obtain ⟨request, h, rfl⟩ := Option.map_eq_some_iff.mp hcall
      exact (setArrayBody_uri request data contentType).trans (initNs_uri h)
  | createObjectFile f contentLength contentType =>
      obtain ⟨request, h, rfl⟩ := Option.map_eq_some_iff.mp hcall
      exact (setFileBody_uri request f contentLength contentType).trans (initNs_uri h)
  | updateObjectSimple data contentType =>
      obtain ⟨request, h, rfl⟩ := Option.map_eq_some_iff.mp hcall
      exact (setArrayBody_uri request (AtmosClient.updateData data) contentType).trans
        (initNs_uri h)
  | updateObjectFile f contentLength contentType =>
      obtain ⟨request, h, rfl⟩ := Option.map_eq_some_iff.mp hcall
      exact (setFileBody_uri request (AtmosClient.updateFile f contentLength) contentLength
        contentType).trans (initNs_uri h)
  | readObjectSimple | headObjectSimple | getUserMetaSimple | getSystemMetaSimple =>
      obtain ⟨request, h, rfl⟩ := Option.map_eq_some_iff.mp hcall
      exact initNs_uri h
  | deleteUserMeta metaNames => exact absurd rfl (hother metaNames)
  | deleteObject | getAcl | getObjectInfo =>
      cases hcall
      rfl
  | renameObject destination force =>
      cases hcall
      cases force <;> rfl
  | setAcl acl =>
      obtain ⟨request, h, heq⟩ := Option.bind_eq_some_iff.mp hcall
      cases heq
      exact (setAclHeaders_eq_some h).1
  | listDirectory fields body h =>
      cases hcall
      have huri := listDirectory_init_uri h
      exact huri

/-- A path shorter than 1000 bytes fits every bound. -/
theorem addressesPath_uri {env : Env} {path suffix : CStr} {op : Operation} {call : Call}
    (hlength : path.length < 1000) (hop : AddressesPath path op suffix)
    (hother : ∀ metaNames, op ≠ .deleteUserMetaNs path metaNames)
    (hcall : op.call env = some call) :
    call.request.parent.uri = bytes "/rest/namespace" ++ path ++ suffix := by
  have hbound : 15 + 1000 + suffix.length ≤ op.uriBound := by
    cases hop <;> exact Nat.le_of_ble_eq_true rfl
  rw [addressesPath_format hop hother hcall]
  exact namespaceUri_fits (by omega)

/-- Every request an operation sends has this URI. -/
def Operation.SendsUri (env : Env) (op : Operation) (uri : CStr) : Prop :=
  ∀ call response x sent, op.call env = some call →
    call.execute env response = some (.next x) → Event.sent sent ∈ x.trace → sent.uri = uri

/-- An operation sends the URI of its request. -/
theorem sendsUri_of_call {env : Env} {op : Operation} {uri : CStr}
    (h : ∀ call, op.call env = some call → call.request.parent.uri = uri) :
    op.SendsUri env uri := by
  intro call response x sent hcall hexecute hsent
  have hframe := execute_sent (operation_ownFilters hcall) hexecute hsent
  rw [hframe.uri]
  exact h call hcall

/-- An operation whose own filters only work on the response sends a request
whose header lines all have a colon. -/
theorem exists_sent {env : Env} {op : Operation} {request : RestRequest}
    {filters : List RestFilter}
    (hcall : op.call env = some (AtmosClient.call (AtmosClient.restRequest request) filters))
    (hrun : ∀ x, run (filters.reverse.map (RestFilter.before env)) x = some (.next x))
    (hcolon : ∀ line ∈ request.headers, colon ∈ line) :
    ∃ response x sent,
      (AtmosClient.call (AtmosClient.restRequest request) filters).execute env response =
        some (.next x) ∧
      Event.sent sent ∈ x.trace ∧ sent.uri = request.uri := by
  obtain ⟨x, hexecute⟩ := @execute_call_completes env (AtmosClient.restRequest request) filters
    (.init .atmosResponse) _ (hrun _) hcolon
  obtain ⟨sent, hsent⟩ := execute_sends (operation_ownFilters hcall) hexecute
  have hframe := execute_sent (operation_ownFilters hcall) hexecute hsent
  exact ⟨_, x, sent, hexecute, hsent, hframe.uri⟩

theorem deletedMetaHeaders_eq (env : Env) (metaNames : List CStr) (request : RestRequest) :
    AtmosClient.deletedMetaHeaders env metaNames request =
      { request with headers := request.headers ++ (utf8Headers env ++
        tagsHeaders env.curl env.atmos.enableUtf8Metadata metaNames).map Header.line } := by
  unfold AtmosClient.deletedMetaHeaders utf8Headers headerIf
  rw [setTagsHeader_headers, List.map_append, ← List.append_assoc]
  split
  · rfl
  · rw [List.map_nil, List.append_nil]

theorem colon_mem_deletedMetaHeaders (env : Env) (metaNames : List CStr) (uri : CStr) :
    ∀ line ∈ (AtmosClient.deletedMetaHeaders env metaNames
      (RestRequest.init uri .delete)).headers, colon ∈ line := by
  rw [deletedMetaHeaders_eq]
  intro line hmem
  obtain ⟨header, -, rfl⟩ := List.mem_map.mp hmem
  exact colon_mem_headerLine _ _

/-- **Namespace addressing.**  All operations on a path send its URI, but for the
one that deletes user metadata; and so does a shareable URL. -/
theorem pathOperation_uri_iff (env : Env) {path : CStr} (hlength : path.length < 1000) :
    (∀ op suffix, AddressesPath path op suffix →
      (op.SendsUri env (bytes "/rest/namespace" ++ path ++ suffix) ↔
        ∀ metaNames, op ≠ .deleteUserMetaNs path metaNames)) ∧
    ∀ expires disposition,
      AtmosClient.getShareableUrlNs env path expires disposition =
        some (env.atmos.origin ++ (bytes "/rest/namespace" ++ path) ++
          AtmosClient.shareableQuery env (bytes "/rest/namespace" ++ path) expires
            disposition) := by
  constructor
  · intro op suffix hop
    constructor
    · intro hsends metaNames hdelete
      subst hdelete
      cases hop
      obtain ⟨response, x, sent, hexecute, hsent, huri⟩ :=
        @exists_sent env (.deleteUserMetaNs path metaNames) _ [] rfl (fun _ => rfl)
          (colon_mem_deletedMetaHeaders env metaNames _)
      rw [hsends _ response x sent rfl hexecute hsent] at huri
      have hsize : atmosPathMax = 1024 := rfl
      have hlength' : (bytes "?metadata/user").length = 14 := rfl
      have hprefix : (bytes "/rest/namespace").length = 15 := rfl
      have hprefix' : (bytes "/rest/namespace/").length = 16 := rfl
      rw [deletedMetaHeaders_eq, RestRequest.init, keypoolUri_fits (by omega)] at huri
      have hlengths := congrArg List.length huri
      simp only [List.length_append, hprefix, hprefix'] at hlengths
      omega
    · intro hother
      exact sendsUri_of_call fun call hcall => addressesPath_uri hlength hop hother hcall
  · intro expires disposition
    have hsize : atmosPathMax = 1024 := rfl
    have huri : namespaceUri atmosPathMax path [] = bytes "/rest/namespace" ++ path := by
      rw [namespaceUri_fits (by rw [List.length_nil]; omega), List.append_nil]
    have hprefix : (bytes "/rest/namespace").length = 15 := rfl
    rw [AtmosClient.getShareableUrlNs, huri]
    apply getShareableUrlInternal_eq
    rw [List.length_append]
    omega

/-- What the reader signs when it addresses an object by path and by key. -/
def addressRecordings : List Recording :=
  [readerRecording
      (bytes ("GET\n\n\nFri, 06 Mar 2026 09:15:30 GMT\n/rest/namespace/docs/a.txt?acl\n" ++
        "x-emc-uid:0123abcd/reader"))
      [252, 123, 81, 67, 251, 120, 127, 21, 30, 71, 154, 131, 225, 84, 106, 232, 49, 221,
      52, 210]
      (bytes "/HtRQ/t4fxUeR5qD4VRq6DHdNNI="),
    readerRecording
      (bytes ("DELETE\n\n\nFri, 06 Mar 2026 09:15:30 GMT\n" ++
        "/rest/namespace//docs/a.txt?metadata/user\n" ++
        "x-emc-tags:farbe\nx-emc-uid:0123abcd/reader\nx-emc-utf8:true"))
      [104, 77, 10, 1, 163, 138, 35, 123, 242, 207, 237, 150, 221, 81, 131, 154, 3, 10,
      100, 253]
      (bytes "aE0KAaOKI3vyz+2W3VGDmgMKZP0="),
    readerRecording
      (bytes ("GET\n\n\nFri, 06 Mar 2026 09:15:30 GMT\n/rest/namespace/a.txt?info\n" ++
        "x-emc-pool:tank\nx-emc-uid:0123abcd/reader"))
      [118, 125, 228, 25, 124, 26, 151, 177, 95, 135, 19, 105, 121, 205, 114, 244, 150,
      215, 145, 246]
      (bytes "dn3kGXwal7FfhxNpec1y9JbXkfY="),
    readerRecording
      (bytes ("GET\n\n\nFri, 06 Mar 2026 09:15:30 GMT\n/rest/namespacea.txt?acl\n" ++
        "x-emc-pool:tank\nx-emc-uid:0123abcd/reader"))
      [209, 130, 81, 205, 59, 4, 178, 135, 65, 71, 107, 24, 238, 100, 44, 20, 102, 192, 50,
      233]
      (bytes "0YJRzTsEsodBR2sY7mQsFGbAMuk=")]

def addressEnv : Env := { readerEnv with openssl := .replay addressRecordings }

theorem pathOperation_uri_iff_docs :
    (Operation.getAclNs (bytes "/docs/a.txt")).SendsUri addressEnv
      (bytes "/rest/namespace" ++ bytes "/docs/a.txt" ++ bytes "?acl") := by
  have hpath := pathOperation_uri_iff addressEnv (by decide : (bytes "/docs/a.txt").length < 1000)
  apply (hpath.1 _ _ .getAcl).mpr
  intro metaNames h
  cases h

/-- Deleting the metadata of `/docs/a.txt` addresses `//docs/a.txt`. -/
theorem deleteUserMetaNs_sends_another_path :
    ∃ call response x sent,
      (Operation.deleteUserMetaNs (bytes "/docs/a.txt") [bytes "farbe"]).call addressEnv =
        some call ∧
      call.execute addressEnv response = some (.next x) ∧ Event.sent sent ∈ x.trace ∧
      sent.uri = bytes "/rest/namespace//docs/a.txt?metadata/user" ∧
      sent.uri ≠ bytes "/rest/namespace" ++ bytes "/docs/a.txt" ++ bytes "?metadata/user" := by
  obtain ⟨response, x, sent, hexecute, hsent, huri⟩ :=
    @exists_sent addressEnv (.deleteUserMetaNs (bytes "/docs/a.txt") [bytes "farbe"]) _ [] rfl
      (fun _ => rfl) (colon_mem_deletedMetaHeaders addressEnv _ _)
  refine ⟨_, response, x, sent, rfl, hexecute, hsent, huri.trans (by decide), ?_⟩
  rw [huri]
  decide

/-! ## Operations on keys -/

/-- The operations that address an object by its pool and its key, with the
suffix of their URI. -/
inductive AddressesKey (pool key : CStr) : Operation → CStr → Prop
  | createObject (fields : RequestFields) (body : Option RequestBody) :
      AddressesKey pool key (.createObject
        ((AtmosCreateObjectRequest.initKeypool pool key).configure fields body)) []
  | createObjectSimple (data : Option (List UInt8)) (contentType : Option CStr) :
      AddressesKey pool key (.createObjectSimpleKeypool pool key data contentType) []
  | createObjectFile (f : Option FileStream) (contentLength : Int) (contentType : Option CStr) :
      AddressesKey pool key (.createObjectFileKeypool pool key f contentLength contentType) []
  | readObject (fields : RequestFields) (body : Option RequestBody) :
      AddressesKey pool key (.readObject
        ((AtmosReadObjectRequest.initKeypool pool key).configure fields body)) []
  | readObjectSimple : AddressesKey pool key (.readObjectSimpleKeypool pool key) []
  | headObject (fields : RequestFields) (body : Option RequestBody) :
      AddressesKey pool key (.readObject
        ((AtmosReadObjectRequest.initKeypoolHead pool key).configure fields body)) []
  | headObjectSimple : AddressesKey pool key (.headObjectKeypool pool key) []
  | updateObject (fields : RequestFields) (body : Option RequestBody) :
      AddressesKey pool key (.updateObject
        ((AtmosUpdateObjectRequest.initKeypool pool key).configure fields body)) []
  | updateObjectSimple (data : Option (List UInt8)) (contentType : Option CStr) :
      AddressesKey pool key (.updateObjectSimpleKeypool pool key data contentType) []
  | updateObjectFile (f : Option FileStream) (contentLength : Int) (contentType : Option CStr) :
      AddressesKey pool key (.updateObjectFileKeypool pool key f contentLength contentType) []
  | deleteObject : AddressesKey pool key (.deleteObjectKeypool pool key) []
  | setUserMeta (fields : RequestFields) (body : Option RequestBody) :
      AddressesKey pool key (.setUserMeta
        ((AtmosSetUserMetaRequest.initKeypool pool key).configure fields body))
        (bytes "?metadata/user")
  | getUserMeta (fields : RequestFields) (body : Option RequestBody) :
      AddressesKey pool key (.getUserMeta
        ((AtmosGetUserMetaRequest.initKeypool pool key).configure fields body))
        (bytes "?metadata/user")
  | getUserMetaSimple :
      AddressesKey pool key (.getUserMetaSimpleKeypool pool key) (bytes "?metadata/user")
  | deleteUserMeta (metaNames : List CStr) :
      AddressesKey pool key (.deleteUserMetaKeypool pool key metaNames) (bytes "?metadata/user")
  | getSystemMeta (fields : RequestFields) (body : Option RequestBody) :
      AddressesKey pool key (.getSystemMeta
        ((AtmosGetSystemMetaRequest.initKeypool pool key).configure fields body))
        (bytes "?metadata/system")
  | getSystemMetaSimple :
      AddressesKey pool key (.getSystemMetaSimpleKeypool pool key) (bytes "?metadata/system")
  | getAcl : AddressesKey pool key (.getAclKeypool pool key) (bytes "?acl")
  | setAcl (acl : List AtmosAclEntry) :
      AddressesKey pool key (.setAclKeypool pool key acl) (bytes "?acl")
  | getObjectInfo : AddressesKey pool key (.getObjectInfoKeypool pool key) (bytes "?info")

/-- **The URI of an operation on a key**, where it is not the one that gets the
ACL. -/
theorem addressesKey_uri {env : Env} {pool key suffix : CStr} {op : Operation} {call : Call}
    (hlength : key.length < 1000) (hop : AddressesKey pool key op suffix)
    (hother : op ≠ .getAclKeypool pool key) (hcall : op.call env = some call) :
    call.request.parent.uri = bytes "/rest/namespace/" ++ key ++ suffix := by
  have hfits : ∀ {size : Nat} {suffix : CStr}, 16 + 1000 + suffix.length ≤ size →
      keypoolUri size key suffix = bytes "/rest/namespace/" ++ key ++ suffix := by
    intro size suffix hsize
    exact keypoolUri_fits (by omega)
  cases hop with
  | createObjectSimple data contentType | updateObjectSimple data contentType =>
      cases hcall
      refine (setArrayBody_uri _ _ contentType).trans ?_
      exact hfits (by decide)
  | createObjectFile f contentLength contentType | updateObjectFile f contentLength contentType =>
      cases hcall
      refine (setFileBody_uri _ _ contentLength contentType).trans ?_
      exact hfits (by decide)
  | getAcl => exact absurd rfl hother
  | deleteUserMeta metaNames =>
      cases hcall
      rw [← hfits (by decide : _ ≤ atmosPathMax + 64)]
      exact congrArg RestRequest.uri (deletedMetaHeaders_eq env metaNames _)
  | setAcl acl =>
      obtain ⟨request, h, heq⟩ := Option.bind_eq_some_iff.mp hcall
      cases heq
      rw [← hfits (by decide : _ ≤ atmosPathMax + 64)]
      exact (setAclHeaders_eq_some h).1
  | _ =>
      cases hcall
      exact hfits (by decide)

/-! ### The pool -/

theorem poolHeader_fits {pool : CStr} (h : pool.length < 1000) :
    poolHeader pool = headerLine atmosHeaderPool pool := by
  have hname : atmosHeaderPool.length = 10 := rfl
  have hsize : atmosPathMax = 1024 := rfl
  exact snprintf_headerLine_fits (by omega)

theorem colon_mem_poolHeader (pool uri : CStr) :
    ∀ line ∈ ((RestRequest.init uri .get).addHeader (poolHeader pool)).headers, colon ∈ line := by
  intro line hmem
  rw [List.mem_singleton.mp hmem, poolHeader_eq]
  exact colon_mem_headerLine _ _

/-- The header lines that name a pool. -/
def poolLines (headers : List CStr) : List CStr := headers.filter (nameIs atmosHeaderPool)

theorem poolLines_eq (headers : List CStr) :
    poolLines headers = linesNamed atmosHeaderPool headers :=
  rfl

/-- The filters of an operation name no pool. -/
theorem poolLines_map_line {headers : List Header}
    (hnames : ∀ h ∈ headers, h.name ∈ filterHeaderNames) :
    poolLines (headers.map Header.line) = [] := by
  have hdistinct : ∀ name ∈ filterHeaderNames, colon ∉ name ∧
      ByteText.lowercase name ≠ ByteText.lowercase atmosHeaderPool := by decide
  exact linesNamed_map_line fun h hmem => hdistinct h.name (hnames h hmem)

theorem poolLines_poolHeader (pool : CStr) : poolLines [poolHeader pool] = [poolHeader pool] := by
  rw [poolHeader_eq, Header.line, headerLine_eq]
  exact linesNamed_line (by decide) _

/-- A pool header behind such lines is the only one. -/
theorem poolLines_addHeader {names : List CStr} {own : List Header} (hown : Named names own)
    (hnames : names ⊆ filterHeaderNames) {request : RestRequest}
    (hheaders : request.headers = own.map Header.line) (pool : CStr) :
    poolLines (request.addHeader (poolHeader pool)).headers = [poolHeader pool] := by
  rw [RestRequest.addHeader_headers, poolLines_eq, linesNamed_append, hheaders, ← poolLines_eq,
    ← poolLines_eq, poolLines_map_line fun h hmem => hnames (hown.mem hmem),
    poolLines_poolHeader, List.nil_append]

/-- What is sent names the pools of the request. -/
theorem poolLines_sent {env : Env} {call : Call} {response : AtmosResponse} {x : Exchange}
    {sent : RestRequest} (hown : HasOwnFilters call)
    (h : call.execute env response = some (.next x)) (hsent : Event.sent sent ∈ x.trace) :
    poolLines sent.headers = poolLines call.request.parent.headers := by
  have huid : linesNamed atmosHeaderPool [uidLine env] = [] :=
    linesNamed_other (by decide) (by decide) _
  obtain ⟨request, filters, rfl, hfilters⟩ := hown
  obtain ⟨y, -, ⟨headers, hnames, happends⟩, hlines⟩ :=
    @linesNamed_sent env request filters response x sent atmosHeaderPool (by decide) (by decide)
      hfilters h hsent
  rw [poolLines_eq, hlines, happends.headers, linesNamed_append, huid, ← poolLines_eq,
    ← poolLines_eq, poolLines_map_line hnames, List.append_nil, List.append_nil]
  rfl

/-- **The pool of an operation on a key** is named once. -/
theorem addressesKey_pool {env : Env} {pool key suffix : CStr} {op : Operation} {call : Call}
    (hop : AddressesKey pool key op suffix) (hcall : op.call env = some call) :
    poolLines call.request.parent.headers = [poolHeader pool] := by
  have hpool := poolLines_poolHeader pool
  cases hop with
  | createObjectSimple data contentType | updateObjectSimple data contentType =>
      cases hcall
      refine (congrArg poolLines (setArrayBody_headers _ _ contentType)).trans ?_
      exact hpool
  | createObjectFile f contentLength contentType | updateObjectFile f contentLength contentType =>
      cases hcall
      refine (congrArg poolLines (setFileBody_headers _ _ contentLength contentType)).trans ?_
      exact hpool
  | deleteUserMeta metaNames =>
      cases hcall
      have hown := (named_utf8Headers env).append
        (named_tagsHeaders env.curl env.atmos.enableUtf8Metadata metaNames)
      apply poolLines_addHeader hown (by decide)
      exact congrArg RestRequest.headers (deletedMetaHeaders_eq env metaNames _)
  | setAcl acl =>
      obtain ⟨request, h, heq⟩ := Option.bind_eq_some_iff.mp hcall
      cases heq
      have hown := (named_singleton httpHeaderContentType (bytes "application/octet-stream")).append
        (named_aclHeaders acl)
      apply poolLines_addHeader hown (by decide)
      exact (setAclHeaders_eq_some h).2
  | _ =>
      cases hcall
      exact hpool

/-- Every request an operation sends has this URI and names this pool, once. -/
def Operation.SendsKey (env : Env) (op : Operation) (uri pool : CStr) : Prop :=
  ∀ call response x sent, op.call env = some call →
    call.execute env response = some (.next x) → Event.sent sent ∈ x.trace →
      sent.uri = uri ∧ poolLines sent.headers = [headerLine atmosHeaderPool pool]

/-- **Keypool addressing.**  All operations on a pool and a key send the URI of
the key and the pool, but for the one that gets the ACL. -/
theorem keyOperation_uri_iff (env : Env) {pool key : CStr} (hpool : pool.length < 1000)
    (hkey : key.length < 1000) {op : Operation} {suffix : CStr}
    (hop : AddressesKey pool key op suffix) :
    op.SendsKey env (bytes "/rest/namespace/" ++ key ++ suffix) pool ↔
      op ≠ .getAclKeypool pool key := by
  constructor
  · intro hsends hgetAcl
    subst hgetAcl
    cases hop
    obtain ⟨response, x, sent, hexecute, hsent, huri⟩ :=
      @exists_sent env (.getAclKeypool pool key) _ [.parseGetAclResponse] rfl (fun _ => rfl)
        (colon_mem_poolHeader pool _)
    rw [(hsends _ response x sent rfl hexecute hsent).1] at huri
    have hsize : atmosPathMax = 1024 := rfl
    have hlength : (bytes "?acl").length = 4 := rfl
    have hprefix : (bytes "/rest/namespace").length = 15 := rfl
    have hprefix' : (bytes "/rest/namespace/").length = 16 := rfl
    rw [RestRequest.addHeader_uri, RestRequest.init, namespaceUri_fits (by omega)] at huri
    have hlengths := congrArg List.length huri
    simp only [List.length_append, hprefix, hprefix'] at hlengths
    omega
  · intro hother call response x sent hcall hexecute hsent
    have hown := operation_ownFilters hcall
    have hframe := execute_sent hown hexecute hsent
    rw [hframe.uri, poolLines_sent hown hexecute hsent, ← poolHeader_fits hpool]
    exact ⟨addressesKey_uri hkey hop hother hcall, addressesKey_pool hop hcall⟩

theorem keyOperation_uri_iff_tank :
    (Operation.getObjectInfoKeypool (bytes "tank") (bytes "a.txt")).SendsKey addressEnv
      (bytes "/rest/namespace/" ++ bytes "a.txt" ++ bytes "?info") (bytes "tank") := by
  apply (keyOperation_uri_iff addressEnv (by decide) (by decide) .getObjectInfo).mpr
  intro h
  cases h

/-- Getting the ACL of the key `a.txt` addresses no key at all. -/
theorem getAclKeypool_sends_another_uri :
    ∃ call response x sent,
      (Operation.getAclKeypool (bytes "tank") (bytes "a.txt")).call addressEnv = some call ∧
      call.execute addressEnv response = some (.next x) ∧ Event.sent sent ∈ x.trace ∧
      sent.uri = bytes "/rest/namespacea.txt?acl" ∧
      sent.uri ≠ bytes "/rest/namespace/" ++ bytes "a.txt" ++ bytes "?acl" := by
  obtain ⟨response, x, sent, hexecute, hsent, huri⟩ :=
    @exists_sent addressEnv (.getAclKeypool (bytes "tank") (bytes "a.txt")) _
      [.parseGetAclResponse] rfl (fun _ => rfl) (colon_mem_poolHeader _ _)
  refine ⟨_, response, x, sent, rfl, hexecute, hsent, huri.trans (by decide), ?_⟩
  rw [huri]
  decide

end Atmos
