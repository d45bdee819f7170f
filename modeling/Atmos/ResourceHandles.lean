import Atmos.ObjectAddressing
import Atmos.ObjectIdLocations
import Atmos.ObjectLookups

/-!
# Handles

The server names objects and versions: new ones in `Location` headers, others in documents.
An application takes an id from the response to one operation and passes it to another.

* `addressesObject_uri` — where the operations on an id send their requests;
* `addresses_iff` — a field addresses what was named exactly when it holds the name;
* `handles_address` — an id in a response addresses what the server named there exactly when
  the name has at most 64 bytes;
* `token_handles` — the same for the location of a token, with at most 254 bytes.
-/

namespace Atmos

open ByteText FixedMemory FilterChain XmlTree AtmosUtil

/-! ## Operations on an id -/

/-- The operations that address an object or a version by its id, with the suffix of their
URI. -/
inductive AddressesObject (objectId : CStr) : Operation → CStr → Prop
  | readObject (fields : RequestFields) (body : Option RequestBody) :
      AddressesObject objectId
        (.readObject ((AtmosReadObjectRequest.init objectId).configure fields body)) []
  | readObjectSimple : AddressesObject objectId (.readObjectSimple objectId) []
  | headObject : AddressesObject objectId (.headObject objectId) []
  | updateObject (fields : RequestFields) (body : Option RequestBody) :
      AddressesObject objectId
        (.updateObject ((AtmosUpdateObjectRequest.init objectId).configure fields body)) []
  | updateObjectSimple (data : Option (List UInt8)) (contentType : Option CStr) :
      AddressesObject objectId (.updateObjectSimple objectId data contentType) []
  | updateObjectFile (f : Option FileStream) (contentLength : Int) (contentType : Option CStr) :
      AddressesObject objectId (.updateObjectFile objectId f contentLength contentType) []
  | deleteObject : AddressesObject objectId (.deleteObject objectId) []
  | setUserMeta (fields : RequestFields) (body : Option RequestBody) :
      AddressesObject objectId
        (.setUserMeta ((AtmosSetUserMetaRequest.init objectId).configure fields body))
        (bytes "?metadata/user")
  | getUserMeta (fields : RequestFields) (body : Option RequestBody) :
      AddressesObject objectId
        (.getUserMeta ((AtmosGetUserMetaRequest.init objectId).configure fields body))
        (bytes "?metadata/user")
  | getUserMetaSimple :
      AddressesObject objectId (.getUserMetaSimple objectId) (bytes "?metadata/user")
  | deleteUserMeta (metaNames : List CStr) :
      AddressesObject objectId (.deleteUserMeta objectId metaNames) (bytes "?metadata/user")
  | getSystemMeta (fields : RequestFields) (body : Option RequestBody) :
      AddressesObject objectId
        (.getSystemMeta ((AtmosGetSystemMetaRequest.init objectId).configure fields body))
        (bytes "?metadata/system")
  | getSystemMetaSimple :
      AddressesObject objectId (.getSystemMetaSimple objectId) (bytes "?metadata/system")
  | getAcl : AddressesObject objectId (.getAcl objectId) (bytes "?acl")
  | setAcl (acl : List AtmosAclEntry) :
      AddressesObject objectId (.setAcl objectId acl) (bytes "?acl")
  | getObjectInfo : AddressesObject objectId (.getObjectInfo objectId) (bytes "?info")
  | createVersion : AddressesObject objectId (.createVersion objectId) (bytes "?versions")
  | listVersions (fields : RequestFields) (body : Option RequestBody) :
      AddressesObject objectId
        (.listVersions ((AtmosListVersionsRequest.init objectId).configure fields body))
        (bytes "?versions")
  | deleteVersion : AddressesObject objectId (.deleteVersion objectId) (bytes "?versions")
  | restoreVersion (versionId : CStr) :
      AddressesObject objectId (.restoreVersion objectId versionId) (bytes "?versions")

/-- The bound that is passed to `snprintf` for the URI of an operation on an id. -/
def Operation.objectUriBound : Operation → Nat
  | .readObject _ | .readObjectSimple _ | .headObject _ => 15 + atmosOidLength
  | .deleteObject _ | .createVersion _ | .listVersions _ | .deleteVersion _
  | .restoreVersion .. => atmosPathMax
  | _ => atmosOidLength + 64

theorem objectUri_fits {size : Nat} {objectId suffix : CStr}
    (h : 14 + objectId.length + suffix.length < size) :
    objectUri size objectId suffix = atmosOidLocationPrefix ++ objectId ++ suffix := by
  have hprefix : atmosOidLocationPrefix.length = 14 := rfl
  apply snprintf_of_length_lt
  change (atmosOidLocationPrefix ++ objectId ++ suffix).length < size
  rw [List.length_append, List.length_append, hprefix]
  exact h

/-- The URI of an operation on an id is written with the operation's own bound. -/
theorem addressesObject_format {env : Env} {objectId suffix : CStr} {op : Operation}
    {call : Call} (hop : AddressesObject objectId op suffix) (hcall : op.call env = some call) :
    call.request.parent.uri = objectUri op.objectUriBound objectId suffix := by
  cases hop with
  | setAcl acl =>
      obtain ⟨request, h, heq⟩ := Option.bind_eq_some_iff.mp hcall
      cases heq
      exact (setAclHeaders_eq_some h).1
  | updateObjectSimple data contentType =>
      cases hcall
      exact setArrayBody_uri (AtmosUpdateObjectRequest.init objectId)
        (AtmosClient.updateData data) contentType
  | updateObjectFile f contentLength contentType =>
      cases hcall
      exact setFileBody_uri (AtmosUpdateObjectRequest.init objectId)
        (AtmosClient.updateFile f contentLength) contentLength contentType
  | deleteUserMeta metaNames =>
      cases hcall
      exact congrArg RestRequest.uri (deletedMetaHeaders_eq env metaNames _)
  | _ =>
      cases hcall
      rfl

/-- **Where the operations on an id send their requests.** -/
theorem addressesObject_uri {objectId suffix : CStr} {op : Operation}
    (hlength : objectId.length < atmosOidLength) (hop : AddressesObject objectId op suffix)
    (env : Env) : op.SendsUri env (atmosOidLocationPrefix ++ objectId ++ suffix) := by
  have hbound : 14 + atmosOidLength + suffix.length ≤ op.objectUriBound := by
    cases hop <;> exact Nat.le_of_ble_eq_true rfl
  apply sendsUri_of_call
  intro call hcall
  rw [addressesObject_format hop hcall]
  exact objectUri_fits (by omega)

/-! ## Fields that hold an id -/

/-- A field addresses what has this name: it holds a string, and every operation on it sends
its requests there. -/
def Addresses (env : Env) (field : Block atmosOidLength) (name : CStr) : Prop :=
  ∃ objectId, field.cstrAt 0 = some objectId ∧
    ∀ op suffix, AddressesObject objectId op suffix →
      op.SendsUri env (atmosOidLocationPrefix ++ name ++ suffix)

/-- A field addresses what was named exactly when it holds the name. -/
theorem addresses_iff (env : Env) (field : Block atmosOidLength) (name : CStr) :
    Addresses env field name ↔ field.cstrAt 0 = some name := by
  constructor
  · rintro ⟨objectId, hfield, hsends⟩
    have hlength := Block.cstrAt_zero_length hfield
    obtain ⟨response, x, sent, hexecute, hsent, huri⟩ :=
      @exists_sent env (.deleteObject objectId) _ [] rfl (fun _ => rfl)
        (fun line hline => absurd hline List.not_mem_nil)
    have hnamed := hsends _ [] .deleteObject _ response x sent rfl hexecute hsent
    have hheld := addressesObject_uri hlength .deleteObject env _ response x sent rfl hexecute
      hsent
    rw [List.append_nil] at hnamed hheld
    rw [hfield, List.append_cancel_left (hheld.symm.trans hnamed)]
  · intro hfield
    exact ⟨name, hfield, fun op suffix hop =>
      addressesObject_uri (Block.cstrAt_zero_length hfield) hop env⟩

/-! ## Ids in responses -/

/-- The fields for ids in a response. -/
def ResponseData.objectIds : ResponseData → List (Block atmosOidLength)
  | createObject objectId => [objectId]
  | createVersion versionId => [versionId]
  | getObjectInfo self => [self.objectId]
  | listDirectory _ _ entries => entries.map (·.objectId)
  | listObjects _ results => results.map (·.objectId)
  | listVersions _ versions => versions.map (·.objectId)
  | _ => []

/-- What follows the path of objects in the location of an answer. -/
def Reply.locatedId (env : ReplyEnv) (reply : Reply) : CStr :=
  ((reply.getHeaderValue env httpHeaderLocation).map
    (·.drop atmosOidLocationPrefixSize)).getD []

/-- The document of an answer. -/
def Reply.document (env : ReplyEnv) (reply : Reply) : Option env.xml.Document :=
  env.xml.readMemory reply.body reply.contentLength.toInt32

/-- The elements of a list in the document of an answer. -/
def Reply.entryNodes (env : ReplyEnv) (reply : Reply) (list entry : CStr) : List Node :=
  (reply.document env).elim [] fun doc => Atmos.entryNodes env.xml doc list entry

/-- What the server names in an answer to an operation. -/
def Reply.namedIds (env : ReplyEnv) (reply : Reply) : Operation.Family → List CStr
  | .create | .createVersion => [reply.locatedId env]
  | .objectInfo =>
      [((reply.document env).bind fun doc =>
        AtmosGetObjectInfoResponse.valueOf env.xml doc (bytes "//cos:objectId")).getD []]
  | .listDirectory =>
      (reply.entryNodes env (bytes "//cos:DirectoryList") (bytes "//cos:DirectoryEntry")).map
        fun node => (lastText env.xml.toXmlText dirNodeObjectId node.children).getD []
  | .listObjects =>
      (reply.entryNodes env (bytes "//cos:ListObjectsResponse") (bytes "//cos:Object")).map
        fun node => (lastText env.xml.toXmlText dirNodeObjectId node.children).getD []
  | .listVersions =>
      (reply.entryNodes env (bytes "//cos:ListVersionsResponse") (bytes "//cos:Ver")).map
        fun node => (lastText env.xml.toXmlText verNodeOid node.children).getD []
  | _ => []

/-- The operations whose answers name objects or versions. -/
def namingFamilies : List Operation.Family :=
  [.create, .createVersion, .objectInfo, .listDirectory, .listObjects, .listVersions]

/-- The results of a run over all items, each with its item. -/
theorem forall₂_of_mapM {α β : Type} {f : α → Option β} {items : List α} {results : List β}
    (h : items.mapM f = some results) :
    List.Forall₂ (fun x result => f x = some result) items results := by
  induction items generalizing results with
  | nil =>
      obtain rfl := Option.some.inj h
      exact .nil
  | cons x items ih =>
      rw [List.mapM_cons] at h
      obtain ⟨result, hresult, hrest⟩ := Option.bind_eq_some_iff.mp h
      obtain ⟨others, hothers, hcons⟩ := Option.bind_eq_some_iff.mp hrest
      obtain rfl := Option.some.inj hcons
      exact .cons hresult (ih hothers)

/-- A field that holds a value exactly when the value fits. -/
theorem addresses_iff_of_holds (client : Env) {field : Block atmosOidLength}
    {value : Option CStr} (h : HoldsValue field value ↔ ValueFits atmosOidLength value) :
    Addresses client field (value.getD []) ↔ (value.getD []).length < atmosOidLength := by
  have hfits : ValueFits atmosOidLength value ↔ (value.getD []).length < atmosOidLength := by
    cases value with
    | none => simp [ValueFits]
    | some text => simp [ValueFits]
  rw [addresses_iff]
  constructor
  · exact Block.cstrAt_zero_length
  · intro hlength
    have hholds := h.mpr (hfits.mpr hlength)
    rw [HoldsValue, Block.Holds, List.take_of_length_le (by omega)] at hholds
    exact hholds

section Answers

variable {env : ReplyEnv} {reply : Reply} (client : Env)

/-- The field for the id in a location. -/
theorem located_addresses_iff
    (hlocation : ∀ location, reply.getHeaderValue env httpHeaderLocation = some location →
      atmosOidLocationPrefix <+: location ∧ 0 ∉ location) {field : Block atmosOidLength}
    (h : (reply.getHeaderValue env httpHeaderLocation).elim (.ok (.zero _))
      (copyLocation (.zero _)) = .ok field) :
    Addresses client field (reply.locatedId env) ↔
      (reply.locatedId env).length < atmosOidLength := by
  rw [Reply.locatedId]
  apply addresses_iff_of_holds
  cases hvalue : reply.getHeaderValue env httpHeaderLocation with
  | none =>
      rw [hvalue] at h
      obtain rfl := Except.ok.inj h
      simp [HoldsValue, Block.zero_holds, ValueFits]
  | some location =>
      rw [hvalue] at h
      obtain ⟨hpath, hnul⟩ := hlocation location hvalue
      have hcopy := copyLocation_holds_iff hnul
      have hsize : atmosOidLocationPrefixSize ≤ location.length := hpath.length_le
      have hholds : field.Holds (location.drop atmosOidLocationPrefixSize) ↔
          atmosOidLocationPrefixSize ≤ location.length ∧
            location.length < atmosOidLocationPrefixSize + atmosOidLength := by
        rw [← hcopy]
        constructor
        · exact fun hfield => ⟨field, h, hfield⟩
        · rintro ⟨field', h', hfield⟩
          obtain rfl := Except.ok.inj (h.symm.trans h')
          exact hfield
      rw [Option.map_some, HoldsValue, Option.getD_some, hholds]
      simp only [ValueFits, Option.some.injEq, forall_eq', List.length_drop]
      omega

/-- A response whose id is copied from a location. -/
theorem located_objectIds {data : Block atmosOidLength → ResponseData}
    (hdata : ∀ field, (data field).objectIds = [field])
    (hlocation : ∀ location, reply.getHeaderValue env httpHeaderLocation = some location →
      atmosOidLocationPrefix <+: location ∧ 0 ∉ location) {result : ResponseData}
    (h : (reply.getHeaderValue env httpHeaderLocation).elim (.ok (data (.zero _)))
      (fun location => (copyLocation (.zero _) location).map data) = .ok result) :
    List.Forall₂ (fun field name => Addresses client field name ↔ name.length < atmosOidLength)
      result.objectIds [reply.locatedId env] := by
  obtain ⟨field, hfield, rfl⟩ : ∃ field,
      (reply.getHeaderValue env httpHeaderLocation).elim (.ok (.zero _))
        (copyLocation (.zero _)) = .ok field ∧ data field = result := by
    cases hvalue : reply.getHeaderValue env httpHeaderLocation with
    | none =>
        rw [hvalue] at h
        exact ⟨_, rfl, Except.ok.inj h⟩
    | some location =>
        rw [hvalue] at h
        exact map_eq_ok.mp h
  rw [hdata]
  exact .cons (located_addresses_iff client hlocation hfield) .nil

/-- The fields of the entries in a listing. -/
theorem listed_addresses_iff {α : Type} {parseEntry : List Node → Option α}
    {objectId : α → Block atmosOidLength} {list entry name : CStr}
    (hentry : ∀ {children result}, parseEntry children = some result →
      (HoldsValue (objectId result) (lastText env.xml.toXmlText name children) ↔
        ValueFits atmosOidLength (lastText env.xml.toXmlText name children)))
    {entries : List α}
    (h : readBody env reply [] (fun doc =>
      within (parseListing env.xml doc list entry parseEntry [])) = .ok entries) :
    List.Forall₂ (fun field name => Addresses client field name ↔ name.length < atmosOidLength)
      (entries.map objectId)
      ((reply.entryNodes env list entry).map fun node =>
        (lastText env.xml.toXmlText name node.children).getD []) := by
  rw [List.forall₂_map_left_iff, List.forall₂_map_right_iff]
  cases hdoc : env.xml.readMemory reply.body reply.contentLength.toInt32 with
  | none =>
      rw [readBody, hdoc, Option.elim_none] at h
      rw [Reply.entryNodes, Reply.document, hdoc, Option.elim_none]
      split at h
      · obtain rfl := Except.ok.inj h
        exact .nil
      · cases h
  | some doc =>
      rw [readBody, hdoc, Option.elim_some, within_eq_ok, parseListing_nil] at h
      rw [Reply.entryNodes, Reply.document, hdoc, Option.elim_some]
      exact ((forall₂_of_mapM h).imp fun _ _ hparse =>
        addresses_iff_of_holds client (hentry hparse)).flip

/-- The field for the id in an object's information. -/
theorem info_objectIds (hxml : env.xml.Documented) {result : ResponseData}
    (h : readBody env reply (.getObjectInfo .init) (fun doc =>
      (within (AtmosGetObjectInfoResponse.parse env.time env.xml doc .init)).map
        .getObjectInfo) = .ok result) :
    List.Forall₂ (fun field name => Addresses client field name ↔ name.length < atmosOidLength)
      result.objectIds (reply.namedIds env .objectInfo) := by
  rw [Reply.namedIds, Reply.document]
  cases hdoc : env.xml.readMemory reply.body reply.contentLength.toInt32 with
  | none =>
      rw [readBody, hdoc, Option.elim_none] at h
      split at h
      · obtain rfl := Except.ok.inj h
        have hempty : HoldsValue (Block.zero atmosOidLength) none ↔
            ValueFits atmosOidLength none := by
          simp [HoldsValue, Block.zero_holds, ValueFits]
        exact .cons (addresses_iff_of_holds client hempty) .nil
      · cases h
  | some doc =>
      rw [readBody, hdoc, Option.elim_some] at h
      obtain ⟨self, hself, rfl⟩ := map_eq_ok.mp h
      obtain ⟨hid, -, -⟩ := AtmosGetObjectInfoResponse.parse_init_eq_some (within_eq_ok.mp hself)
      refine .cons (addresses_iff_of_holds client ?_) .nil
      rw [hid]
      exact copyValue_holds_iff (by decide) (nul_selectSingleNodeValue hxml)

end Answers

/-- **Ids address what the server named.**  An operation whose answer names objects or
versions gets a success, with a location under the path of objects if it has one, and
the response is parsed.  It then has a field for each name, in their order, and for every
client this field addresses what has the name exactly when the name is shorter than it. -/
theorem handles_address {env : ReplyEnv} (hxml : env.xml.Documented) {reply : Reply}
    {op : Operation} {call : Call} (hcall : op.call env.toEnv = some call)
    (hop : op.family ∈ namingFamilies) (hsuccess : op.family.failed reply.httpCode = false)
    (hlocation : ∀ location, reply.getHeaderValue env httpHeaderLocation = some location →
      atmosOidLocationPrefix <+: location ∧ 0 ∉ location)
    {result : Response} (hreceive : call.receive env reply op.response = .ok result)
    (client : Env) :
    List.Forall₂ (fun field name => Addresses client field name ↔ name.length < atmosOidLength)
      result.data.objectIds (reply.namedIds env op.family) := by
  have hcode : aboveSuccess reply.httpCode = false ∧
      (op.family = .create → reply.httpCode = 201) := by
    simp only [namingFamilies, List.mem_cons, List.not_mem_nil, or_false] at hop
    rcases hop with hfamily | hfamily | hfamily | hfamily | hfamily | hfamily <;>
      rw [hfamily] at hsuccess ⊢ <;>
      simp [Operation.Family.failed, Operation.Family.filters, RestFilter.failed,
        aboveSuccess] at hsuccess <;>
      simp [hsuccess, aboveSuccess]
  obtain ⟨hcode, hcreated⟩ := hcode
  simp only [namingFamilies, List.mem_cons, List.not_mem_nil, or_false] at hop
  rcases hop with hfamily | hfamily | hfamily | hfamily | hfamily | hfamily
  · obtain ⟨parent, hparent, heq⟩ := receive_of_success hcall
      (hfamily ▸ rfl : op.family.filters.filter _ = [.parseCreateResponse]) hcode
    have hpassed : decide (parent.httpCode ≠ 201) = false := by
      rw [hparent, hcreated hfamily]
      rfl
    rw [heq, hfamily, RestFilter.after, AtmosFilter.After.parseCreateResponse,
      parseUnless_of_passed hpassed] at hreceive
    obtain ⟨data, hdata, rfl⟩ := map_eq_ok.mp hreceive
    rw [hfamily]
    exact located_objectIds client (fun _ => rfl) hlocation hdata
  · obtain ⟨parent, hparent, heq⟩ := receive_of_success hcall
      (hfamily ▸ rfl : op.family.filters.filter _ = [.parseCreateVersionResponse]) hcode
    have hpassed : aboveSuccess parent.httpCode = false := hparent ▸ hcode
    rw [heq, hfamily, RestFilter.after, AtmosFilter.After.parseCreateVersionResponse,
      parseUnless_of_passed hpassed] at hreceive
    obtain ⟨data, hdata, rfl⟩ := map_eq_ok.mp hreceive
    rw [hfamily]
    exact located_objectIds client (fun _ => rfl) hlocation hdata
  · obtain ⟨parent, hparent, heq⟩ := receive_of_success hcall
      (hfamily ▸ rfl : op.family.filters.filter _ = [.parseGetInfoResponse]) hcode
    have hpassed : aboveSuccess parent.httpCode = false := hparent ▸ hcode
    rw [heq, hfamily, RestFilter.after, AtmosFilter.After.parseGetInfoResponse,
      parseUnless_of_passed hpassed] at hreceive
    obtain ⟨data, hdata, rfl⟩ := map_eq_ok.mp hreceive
    rw [hfamily]
    exact info_objectIds client hxml hdata
  · obtain ⟨parent, hparent, heq⟩ := receive_eq_of_success hcall hcode op.response
    have hpassed : aboveSuccess parent.httpCode = false := hparent ▸ hcode
    have hfilters : Operation.Family.listDirectory.filters.filter (·.worksAfter) =
        [.parseReadObjectResponse, .listDirectory] := rfl
    rw [heq, Operation.response, hfamily, hfilters, List.foldlM_cons, RestFilter.after,
      AtmosFilter.After.parseReadObjectResponse, parseUnless_of_passed hpassed,
      Operation.Family.data] at hreceive
    dsimp only at hreceive
    -- the metadata of the directory is read first, and kept
    cases hread : AtmosReadObjectResponse.parse env reply
      ⟨zeroedArrays, zeroedSystemMetadata⟩ with
    | error fault =>
        rw [hread] at hreceive
        cases hreceive
    | ok self =>
        rw [hread] at hreceive
        have hlist : AtmosFilter.After.listDirectory env reply
            ⟨parent, .listDirectory self none []⟩ = .ok result := (bind_pure _).symm.trans hreceive
        rw [AtmosFilter.After.listDirectory, parseUnless_of_passed hpassed] at hlist
        obtain ⟨data, hdata, rfl⟩ := map_eq_ok.mp hlist
        obtain ⟨entries, hentries, rfl⟩ := map_eq_ok.mp hdata
        rw [hfamily]
        exact listed_addresses_iff client (fun h => copied_foldlM (by decide)
          AtmosDirectoryEntry.objectId (fun h => (AtmosDirectoryEntry.parseChild_eq_some h).2.1)
          hxml h rfl) hentries
  · obtain ⟨parent, hparent, heq⟩ := receive_of_success hcall
      (hfamily ▸ rfl : op.family.filters.filter _ = [.listObjects]) hcode
    have hpassed : aboveSuccess parent.httpCode = false := hparent ▸ hcode
    rw [heq, hfamily, RestFilter.after, AtmosFilter.After.listObjects,
      parseUnless_of_passed hpassed] at hreceive
    obtain ⟨data, hdata, rfl⟩ := map_eq_ok.mp hreceive
    obtain ⟨results, hresults, rfl⟩ := map_eq_ok.mp hdata
    rw [hfamily]
    exact listed_addresses_iff client (fun h => copied_foldlM (by decide)
      AtmosObjectListing.objectId (fun h => (AtmosObjectListing.parseChild_eq_some h).2) hxml h
      rfl) hresults
  · obtain ⟨parent, hparent, heq⟩ := receive_of_success hcall
      (hfamily ▸ rfl : op.family.filters.filter _ = [.listVersions]) hcode
    have hpassed : aboveSuccess parent.httpCode = false := hparent ▸ hcode
    rw [heq, hfamily, RestFilter.after, AtmosFilter.After.listVersions,
      parseUnless_of_passed hpassed] at hreceive
    obtain ⟨data, hdata, rfl⟩ := map_eq_ok.mp hreceive
    obtain ⟨versions, hversions, rfl⟩ := map_eq_ok.mp hdata
    rw [hfamily]
    exact listed_addresses_iff client (fun h => copied_foldlM (by decide)
      AtmosVersion.objectId AtmosVersion.parseChild_eq_some hxml h rfl) hversions

theorem handles_address_created :
    ∃ result field,
      (AtmosClient.createObject photoRequest).receive blindEnv createdReply
        (Operation.createObject photoRequest).response = .ok result ∧
      result.data.objectIds = [field] ∧ Addresses readerEnv field (bytes "4ee696e4") := by
  have hnamed : createdReply.locatedId blindEnv = bytes "4ee696e4" := by decide
  have hlocation : ∀ location, createdReply.getHeaderValue blindEnv httpHeaderLocation =
      some location → atmosOidLocationPrefix <+: location ∧ 0 ∉ location := by
    intro location hvalue
    obtain rfl := Option.some.inj (createdReply_location.symm.trans hvalue)
    decide
  obtain ⟨result, hreceive⟩ : ∃ result,
      (AtmosClient.createObject photoRequest).receive blindEnv createdReply
        (Operation.createObject photoRequest).response = .ok result := ⟨_, rfl⟩
  have hids := @handles_address blindEnv LibxmlReader.blind_documented createdReply
    (.createObject photoRequest) _ rfl (by decide) (by decide) hlocation result hreceive readerEnv
  obtain ⟨field, rest, haddresses, hrest, hdata⟩ := List.forall₂_cons_right_iff.mp hids
  cases hrest
  rw [hnamed] at haddresses
  exact ⟨result, field, hreceive, hdata, haddresses.mpr (by decide)⟩

/-! ## Access tokens -/

/-- The operations on a token, with the suffix of their URI. -/
inductive AddressesToken (tokenId : CStr) : Operation → CStr → Prop
  | deleteAccessToken : AddressesToken tokenId (.deleteAccessToken tokenId) []
  | getAccessTokenInfo :
      AddressesToken tokenId (.getAccessTokenInfo tokenId) (bytes "?info")

/-- Where the operations on a token send their requests. -/
theorem addressesToken_uri {tokenId suffix : CStr} {op : Operation}
    (hlength : tokenId.length < atmosSimpleHeaderMax) (hop : AddressesToken tokenId op suffix)
    (env : Env) : op.SendsUri env (atmosAccessTokenLocationPrefix ++ tokenId ++ suffix) := by
  have hprefix : atmosAccessTokenLocationPrefix.length = 19 := rfl
  have hinfo : (bytes "?info").length = 5 := rfl
  have hsizes : atmosSimpleHeaderMax = 255 ∧ atmosPathMax = 1024 := ⟨rfl, rfl⟩
  apply sendsUri_of_call
  intro call hcall
  cases hop with
  | deleteAccessToken =>
      cases hcall
      rw [List.append_nil]
      apply snprintf_of_length_lt
      change (atmosAccessTokenLocationPrefix ++ tokenId).length < atmosPathMax
      rw [List.length_append]
      omega
  | getAccessTokenInfo =>
      cases hcall
      apply snprintf_of_length_lt
      change (atmosAccessTokenLocationPrefix ++ tokenId ++ bytes "?info").length < atmosPathMax
      rw [List.length_append, List.length_append]
      omega

/-- **A token's location is its address.**  A success that locates a new token under the path
of tokens is parsed.  The field then holds a string with which every operation on the token
goes to this location exactly when what follows the path is shorter than the field. -/
theorem token_handles {env : ReplyEnv} {reply : Reply} {op : Operation} {call : Call}
    (hcall : op.call env.toEnv = some call) (hop : op.family = .createAccessToken)
    (hsuccess : aboveSuccess reply.httpCode = false) {location : CStr}
    (hlocation : reply.getHeaderValue env httpHeaderLocation = some location)
    (hpath : atmosAccessTokenLocationPrefix <+: location) (hnul : 0 ∉ location)
    (client : Env) :
    ∃ result field, call.receive env reply op.response = .ok result ∧
      result.data = .createAccessToken field ∧
      ((∃ tokenId, field.cstrAt 0 = some tokenId ∧
        ∀ op suffix, AddressesToken tokenId op suffix →
          op.SendsUri client (location ++ suffix)) ↔
        location.length < atmosAccessTokenLocationPrefix.length + atmosSimpleHeaderMax) := by
  obtain ⟨tokenId, rfl⟩ := hpath
  obtain ⟨parent, hparent, heq⟩ := receive_of_success hcall
    (hop ▸ rfl : op.family.filters.filter _ = [.createAccessToken]) hsuccess
  have hpassed : aboveSuccess parent.httpCode = false := hparent ▸ hsuccess
  have htoken : 0 ∉ tokenId := fun hmem => hnul (List.mem_append_right _ hmem)
  have hholds := @Block.strncpy_holds_iff atmosSimpleHeaderMax tokenId htoken
  refine ⟨⟨parent, .createAccessToken (.strncpy tokenId)⟩, .strncpy tokenId, ?_, rfl, ?_⟩
  · rw [heq, hop, RestFilter.after, AtmosFilter.After.createAccessToken,
      parseUnless_of_passed hpassed]
    dsimp only [Operation.Family.data]
    rw [hlocation, Option.elim_some, if_pos (List.prefix_append _ _), List.drop_left]
    rfl
  · rw [List.length_append, Nat.add_lt_add_iff_left]
    constructor
    · rintro ⟨held, hfield, -⟩
      exact (readCStr_strncpy_isSome htoken _).mp (Option.isSome_of_eq_some hfield)
    · intro hlength
      have hfield := hholds.mpr hlength
      rw [Block.Holds, List.take_of_length_le (by omega)] at hfield
      exact ⟨tokenId, hfield, fun op suffix hop => addressesToken_uri hlength hop client⟩

/-- An answer with the location of a token. -/
def uploadReply : Reply :=
  { lostReply with httpCode := 201, headers := [bytes "Location: /rest/accesstokens/u9x2"] }

theorem token_handles_upload :
    ∃ result field,
      (AtmosClient.createAccessToken (AtmosCreateAccessTokenRequest.init [] [])).receive
        blindEnv uploadReply (Operation.createAccessToken
          (AtmosCreateAccessTokenRequest.init [] [])).response = .ok result ∧
      result.data = .createAccessToken field ∧
      ∃ tokenId, field.cstrAt 0 = some tokenId ∧
        (Operation.deleteAccessToken tokenId).SendsUri readerEnv
          (bytes "/rest/accesstokens/u9x2") := by
  have hlocation : uploadReply.getHeaderValue blindEnv httpHeaderLocation =
      some (bytes "/rest/accesstokens/u9x2") := by decide
  obtain ⟨result, field, hreceive, hdata, haddresses⟩ := @token_handles blindEnv uploadReply
    (.createAccessToken (AtmosCreateAccessTokenRequest.init [] [])) _ rfl rfl (by decide) _
    hlocation (by decide) (by decide) readerEnv
  obtain ⟨tokenId, hfield, hsends⟩ := haddresses.mpr (by decide)
  exact ⟨result, field, hreceive, hdata, tokenId, hfield, hsends _ [] .deleteAccessToken⟩

end Atmos
