import Atmos.ListingAgreement
import Atmos.RequestFilters

/-!
# Response bodies

The server answers most operations, and every failed one, with an XML document.
The parsers look for nodes with XPath or walk over the children of an element,
and copy what they find to the fields of the response: texts by `strcpy`, or by
`strncpy` with the size of the field.

The functions of this file take the document that `libxml2` has read.  They have
no result where a write leaves its field or buffer.
-/

namespace Atmos

open ByteText FixedMemory XmlTree AtmosUtil

def dirNodeObjectId : CStr := bytes "ObjectID"
def dirNodeFileType : CStr := bytes "FileType"
def dirNodeFileName : CStr := bytes "Filename"
def dirNodeSystemMetadataList : CStr := bytes "SystemMetadataList"
def dirNodeUserMetadataList : CStr := bytes "UserMetadataList"
def verNodeOid : CStr := bytes "OID"
def verNodeVerNum : CStr := bytes "VerNum"
def verNodeItime : CStr := bytes "itime"

/-! ## Selecting nodes -/

namespace AtmosUtil

variable (xml : LibxmlReader) (doc : xml.Document)

/-- The namespace of the prefix `cos`. -/
def cosNamespace : CStr × CStr := (bytes "cos", bytes "http://www.emc.com/cos/")

/-- `AtmosUtil_select_nodes`, with no nodes for NULL; `AtmosUtil_count_nodes` is
the number of these. -/
def selectNodes (selector : CStr) (useCosNs : Bool) : List Node :=
  xml.xpathEval doc (if useCosNs then [cosNamespace] else []) selector

/-- `AtmosUtil_select_single_node_value` -/
def selectSingleNodeValue (selector : CStr) (useCosNs : Bool) : Option CStr :=
  let nodes := selectNodes xml doc selector useCosNs
  if nodes.length = 1 then nodes.head?.bind xml.nodeGetContent else none

end AtmosUtil

/-- `strncpy` of a value to a field of its own size, if there is a value. -/
def copyValue {n : Nat} (value : Option CStr) (field : Block n) : Block n :=
  value.elim field .strncpy

/-! ## Errors -/

/-- The part of `AtmosFilter_parse_atmos_error` that reads the document. -/
def AtmosResponse.parseError (xml : LibxmlReader) (doc : xml.Document) (self : AtmosResponse) :
    Option AtmosResponse :=
  if (xml.rootElement doc).1 ≠ bytes "Error" then some self
  else
    let code := selectSingleNodeValue xml doc (bytes "/Error/Code") false
    let self : AtmosResponse := code.elim self fun value =>
      { self with atmosError := (strtoll value).toInt32.toInt }
    (selectSingleNodeValue xml doc (bytes "/Error/Message") false).elim (some self) fun value =>
      (strcpyTo atmosErrorMax value).map fun message => { self with atmosErrorMessage := message }

/-- The message that is copied from a document, if it is an error with one. -/
def errorMessage (xml : LibxmlReader) (doc : xml.Document) : Option CStr :=
  if (xml.rootElement doc).1 ≠ bytes "Error" then none
  else selectSingleNodeValue xml doc (bytes "/Error/Message") false

/-- The parser of an error stays in its field exactly when the message fits. -/
theorem AtmosResponse.parseError_isSome_iff (xml : LibxmlReader) (doc : xml.Document)
    (self : AtmosResponse) : (self.parseError xml doc).isSome ↔
      ∀ message, errorMessage xml doc = some message → message.length < atmosErrorMax := by
  unfold AtmosResponse.parseError errorMessage
  split
  · simp
  · cases selectSingleNodeValue xml doc (bytes "/Error/Message") false with
    | none => simp
    | some message => simp [strcpyTo]

/-- It sets the two fields for errors only. -/
theorem AtmosResponse.parseError_eq_some {xml : LibxmlReader} {doc : xml.Document}
    {self self' : AtmosResponse} (h : self.parseError xml doc = some self') :
    self'.httpCode = self.httpCode ∧
      self'.atmosErrorMessage = (errorMessage xml doc).getD self.atmosErrorMessage := by
  unfold AtmosResponse.parseError at h
  unfold errorMessage
  split at h
  · rename_i hroot
    cases h
    rw [if_pos hroot]
    exact ⟨rfl, rfl⟩
  · rename_i hroot
    rw [if_neg hroot]
    dsimp only at h
    cases hmessage : selectSingleNodeValue xml doc (bytes "/Error/Message") false with
    | none =>
        rw [hmessage] at h
        cases h
        cases selectSingleNodeValue xml doc (bytes "/Error/Code") false <;> exact ⟨rfl, rfl⟩
    | some message =>
        rw [hmessage] at h
        obtain ⟨copied, hcopied, rfl⟩ := Option.map_eq_some_iff.mp h
        obtain ⟨-, rfl⟩ := strcpyTo_eq_some.mp hcopied
        cases selectSingleNodeValue xml doc (bytes "/Error/Code") false <;> exact ⟨rfl, rfl⟩

/-! ## Service information -/

/-- `AtmosServiceInfoResponse`, its own fields. -/
structure AtmosServiceInfoResponse where
  version : Block 64
  utf8MetadataSupported : Bool

def AtmosServiceInfoResponse.init : AtmosServiceInfoResponse where
  version := .zero 64
  utf8MetadataSupported := false

/-- The version of the document. -/
def AtmosServiceInfoResponse.parse (xml : LibxmlReader) (doc : xml.Document)
    (self : AtmosServiceInfoResponse) : Option AtmosServiceInfoResponse :=
  (selectSingleNodeValue xml doc (bytes "//cos:Atmos") true).elim (some self) fun value =>
    (self.version.strcpy value).map fun version => { self with version }

/-! ## Object information -/

structure AtmosReplicaInfo where
  id : Int32
  type : Block 16
  current : Bool
  location : Block atmosSimpleHeaderMax
  storageType : Block atmosSimpleHeaderMax

/-- `AtmosGetObjectInfoResponse`, its own fields; `replicas` is as long as
`replica_count` says. -/
structure AtmosGetObjectInfoResponse where
  objectId : Block atmosOidLength
  selection : Block atmosSimpleHeaderMax
  replicas : List AtmosReplicaInfo
  retentionEnabled : Bool
  retentionEnd : Int64
  expirationEnabled : Bool
  expirationEnd : Int64

namespace AtmosGetObjectInfoResponse

def init : AtmosGetObjectInfoResponse where
  objectId := .zero atmosOidLength
  selection := .zero atmosSimpleHeaderMax
  replicas := []
  retentionEnabled := false
  retentionEnd := 0
  expirationEnabled := false
  expirationEnd := 0

variable (time : TimeLibrary) (xml : LibxmlReader) (doc : xml.Document)

/-- The value of a field of a replica; XPath counts from 1. -/
def replicaValue (i : Nat) (field : CStr) : Option CStr :=
  selectSingleNodeValue xml doc
    (snprintf atmosSimpleHeaderMax
      (bytes "//cos:replicas/cos:replica[" ++ decimal (i + 1) ++ bytes "]/cos:" ++ field)) true

/-- One round of the loop over the replicas, on a zeroed entry. -/
def parseReplica (i : Nat) : AtmosReplicaInfo where
  id := (replicaValue xml doc i (bytes "id")).elim 0 fun value => (strtoll value).toInt32
  type := copyValue (replicaValue xml doc i (bytes "type")) (.zero 16)
  current := (replicaValue xml doc i (bytes "current")).elim false fun value =>
    value = bytes "true"
  location := copyValue (replicaValue xml doc i (bytes "location")) (.zero atmosSimpleHeaderMax)
  storageType :=
    copyValue (replicaValue xml doc i (bytes "storageType")) (.zero atmosSimpleHeaderMax)

/-- The number of replicas in a document. -/
def replicaCount : Nat := (selectNodes xml doc (bytes "//cos:replicas/cos:replica") true).length

/-- The end of retention or expiration: an empty element is passed over. -/
def parseEnd (selector : CStr) (old : Int64) : Option Int64 :=
  (selectSingleNodeValue xml doc selector true).elim (some old) fun value =>
    if value = [] then some old else parseXmlDatetime time value

/-- `AtmosGetObjectInfoResponse_parse` -/
def parse (self : AtmosGetObjectInfoResponse) : Option AtmosGetObjectInfoResponse := do
  let value := fun selector => selectSingleNodeValue xml doc selector true
  let retentionEnd ← parseEnd time xml doc (bytes "//cos:retention/cos:endAt") self.retentionEnd
  let expirationEnd ←
    parseEnd time xml doc (bytes "//cos:expiration/cos:endAt") self.expirationEnd
  some
    { objectId := copyValue (value (bytes "//cos:objectId")) self.objectId
      selection := copyValue (value (bytes "//cos:selection")) self.selection
      replicas :=
        if replicaCount xml doc = 0 then self.replicas
        else (List.range (replicaCount xml doc)).map (parseReplica xml doc)
      retentionEnabled := (value (bytes "//cos:retention/cos:enabled")).elim
        self.retentionEnabled fun value => value = bytes "true"
      retentionEnd
      expirationEnabled := (value (bytes "//cos:expiration/cos:enabled")).elim
        self.expirationEnabled fun value => value = bytes "true"
      expirationEnd }

end AtmosGetObjectInfoResponse

/-! ## Listings -/

/-- The three functions that parse a listing: nothing is stored for a document
without the element that `list` selects, or without entries; the array replaces
the old one. -/
def parseListing {α : Type} (xml : LibxmlReader) (doc : xml.Document) (list entry : CStr)
    (parseEntry : List Node → Option α) (old : List α) : Option (List α) :=
  if (selectNodes xml doc list true).length = 0 then some old
  else
    let nodes := selectNodes xml doc entry true
    if nodes = [] then some old else nodes.mapM fun node => parseEntry node.children

section Entries

variable (time : TimeLibrary) (curl : Curl) (xml : LibxmlReader)

/-- `AtmosDirectoryEntry`; without a type the pointer is null. -/
structure AtmosDirectoryEntry where
  parent : AtmosObjectMetadata
  objectId : Block atmosOidLength
  type : Option AtmosType
  filename : Block atmosPathMax

namespace AtmosDirectoryEntry

def init : AtmosDirectoryEntry where
  parent := .zero
  objectId := .zero atmosOidLength
  type := none
  filename := .zero atmosPathMax

/-- One round of the loop of `AtmosDirectoryEntry_parse_entry`. -/
def parseChild (entry : AtmosDirectoryEntry) (child : Node) : Option AtmosDirectoryEntry :=
  child.onElement (some entry) fun name children =>
    if name = dirNodeObjectId then
      some { entry with objectId := copyValue (xml.nodeGetContent child) entry.objectId }
    else if name = dirNodeFileType then
      some ((xml.nodeGetContent child).elim entry fun value =>
        if value = atmosTypeDirectory then { entry with type := some .directory }
        else if value = atmosTypeRegular then { entry with type := some .regular }
        else entry)
    else if name = dirNodeFileName then
      some { entry with filename := copyValue (xml.nodeGetContent child) entry.filename }
    else if name = dirNodeSystemMetadataList then
      (entry.parent.parseSystemMeta time curl xml.toXmlText children).map fun parent =>
        { entry with parent }
    else if name = dirNodeUserMetadataList then
      (entry.parent.parseUsermeta xml.toXmlText children).map fun parent => { entry with parent }
    else some entry

/-- `AtmosDirectoryEntry_parse_entry`, on a new entry. -/
def parseEntry (children : List Node) : Option AtmosDirectoryEntry :=
  children.foldlM (parseChild time curl xml) init

end AtmosDirectoryEntry

/-- `AtmosObjectListing` -/
structure AtmosObjectListing where
  parent : AtmosObjectMetadata
  objectId : Block atmosOidLength

namespace AtmosObjectListing

def init : AtmosObjectListing where
  parent := .zero
  objectId := .zero atmosOidLength

/-- One round of the loop of `AtmosObjectListing_parse_entry`. -/
def parseChild (entry : AtmosObjectListing) (child : Node) : Option AtmosObjectListing :=
  child.onElement (some entry) fun name children =>
    if name = dirNodeObjectId then
      some { entry with objectId := copyValue (xml.nodeGetContent child) entry.objectId }
    else if name = dirNodeSystemMetadataList then
      (entry.parent.parseSystemMeta time curl xml.toXmlText children).map fun parent =>
        { entry with parent }
    else if name = dirNodeUserMetadataList then
      (entry.parent.parseUsermeta xml.toXmlText children).map fun parent => { entry with parent }
    else some entry

/-- `AtmosObjectListing_parse_entry`, on a new entry. -/
def parseEntry (children : List Node) : Option AtmosObjectListing :=
  children.foldlM (parseChild time curl xml) init

end AtmosObjectListing

/-- `AtmosVersion` -/
structure AtmosVersion where
  objectId : Block atmosOidLength
  versionNumber : Int32
  itime : Int64

namespace AtmosVersion

def init : AtmosVersion where
  objectId := .zero atmosOidLength
  versionNumber := 0
  itime := 0

/-- One round of the loop of `AtmosVersion_parse_entry`. -/
def parseChild (entry : AtmosVersion) (child : Node) : Option AtmosVersion :=
  child.onElement (some entry) fun name _ =>
    if name = verNodeOid then
      some { entry with objectId := copyValue (xml.nodeGetContent child) entry.objectId }
    else if name = verNodeVerNum then
      some ((xml.nodeGetContent child).elim entry fun value =>
        { entry with versionNumber := (strtoll value).toInt32 })
    else if name = verNodeItime then
      (xml.nodeGetContent child).elim (some entry) fun value =>
        (parseXmlDatetime time value).map fun itime => { entry with itime }
    else some entry

/-- `AtmosVersion_parse_entry`, on a new entry. -/
def parseEntry (children : List Node) : Option AtmosVersion :=
  children.foldlM (parseChild time xml) init

end AtmosVersion

end Entries

/-- `AtmosListDirectoryResponse_parse`, on the entries. -/
def AtmosListDirectoryResponse.parse (time : TimeLibrary) (curl : Curl) (xml : LibxmlReader)
    (doc : xml.Document) (entries : List AtmosDirectoryEntry) :
    Option (List AtmosDirectoryEntry) :=
  parseListing xml doc (bytes "//cos:DirectoryList") (bytes "//cos:DirectoryEntry")
    (AtmosDirectoryEntry.parseEntry time curl xml) entries

/-- `AtmosListObjectsResponse_parse`, on the results. -/
def AtmosListObjectsResponse.parse (time : TimeLibrary) (curl : Curl) (xml : LibxmlReader)
    (doc : xml.Document) (results : List AtmosObjectListing) : Option (List AtmosObjectListing) :=
  parseListing xml doc (bytes "//cos:ListObjectsResponse") (bytes "//cos:Object")
    (AtmosObjectListing.parseEntry time curl xml) results

/-- `AtmosListVersionsResponse_parse`, on the versions. -/
def AtmosListVersionsResponse.parse (time : TimeLibrary) (xml : LibxmlReader)
    (doc : xml.Document) (versions : List AtmosVersion) : Option (List AtmosVersion) :=
  parseListing xml doc (bytes "//cos:ListVersionsResponse") (bytes "//cos:Ver")
    (AtmosVersion.parseEntry time xml) versions

end Atmos
