import Atmos.SystemMetadata
import Atmos.XmlTree

/-!
# Metadata in a listing

The objects of a listing come as XML elements.  `AtmosUtil_parse_meta` reads
one `Metadata` element; `AtmosObjectMetadata_parse_usermeta` walks over a
`UserMetadataList` twice, first to count the entries of both kinds and then to
copy them into arrays of that size.

* `parseUsermeta_eq` — the arrays it leaves.
-/

namespace Atmos

open ByteText FixedMemory XmlTree

def dirNodeMetadata : CStr := bytes "Metadata"
def dirNodeName : CStr := bytes "Name"
def dirNodeValue : CStr := bytes "Value"
def dirNodeListable : CStr := bytes "Listable"

/-- The local variables `name`, `value` and `listable`; the two strings may
fill their buffers and then have no terminator. -/
structure ParsedMeta where
  name : CStr
  value : CStr
  listable : Bool
  deriving DecidableEq, Repr

/-- The variables before an element is read. -/
def ParsedMeta.zero : ParsedMeta where
  name := []
  value := []
  listable := false

/-- `AtmosObjectMetadata` -/
structure AtmosObjectMetadata where
  metadata : AtmosUtil.MetadataArray
  listableMeta : AtmosUtil.MetadataArray
  systemMetadata : AtmosSystemMetadata

/-- A zeroed `AtmosObjectMetadata`: its arrays are null. -/
def AtmosObjectMetadata.zero : AtmosObjectMetadata where
  metadata := ([], 0)
  listableMeta := ([], 0)
  systemMetadata := zeroedSystemMetadata

/-- One round of the loop of `AtmosUtil_parse_meta`. -/
def AtmosUtil.parseMetaChild (xml : XmlText) (parsed : ParsedMeta) (child : Node) : ParsedMeta :=
  child.onElement parsed fun name _ =>
    if name = dirNodeName then
      (xml.nodeGetContent child).elim parsed fun xvalue =>
        { parsed with name := xvalue.take atmosMetaNameMax }
    else if name = dirNodeValue then
      (xml.nodeGetContent child).elim parsed fun xvalue =>
        { parsed with value := xvalue.take atmosMetaValueMax }
    else if name = dirNodeListable then
      (xml.nodeGetContent child).elim parsed fun xvalue =>
        { parsed with listable := xvalue = bytes "true" }
    else parsed

/-- `AtmosUtil_parse_meta`, given the children of the element. -/
def AtmosUtil.parseMeta (xml : XmlText) (children : List Node) (parsed : ParsedMeta) : ParsedMeta :=
  children.foldl (AtmosUtil.parseMetaChild xml) parsed

namespace AtmosObjectMetadata

section Usermeta

variable (xml : XmlText)

/-- Store an entry in a counted array; no result past its end. -/
def addEntry (array : AtmosUtil.MetadataArray) (parsed : ParsedMeta) :
    Option AtmosUtil.MetadataArray :=
  array.1[array.2]?.bind fun slot =>
    (setEntry parsed.name parsed.value slot).map fun slot =>
      (array.1.set array.2 slot, array.2 + 1)

/-- One round of the first loop: the numbers of regular and listable entries. -/
def countChild (counts : Nat × Nat) (child : Node) : Nat × Nat :=
  child.onElement counts fun name children =>
    if name = dirNodeMetadata then
      if (AtmosUtil.parseMeta xml children .zero).listable then (counts.1, counts.2 + 1)
      else (counts.1 + 1, counts.2)
    else counts

/-- One round of the second loop, over the arrays with the indices of their next
slots. -/
def fillChild (arrays : AtmosUtil.MetadataArray × AtmosUtil.MetadataArray) (child : Node) :
    Option (AtmosUtil.MetadataArray × AtmosUtil.MetadataArray) :=
  child.onElement (some arrays) fun name children =>
    if name = dirNodeMetadata then
      let parsed := AtmosUtil.parseMeta xml children .zero
      if parsed.listable then (addEntry arrays.2 parsed).map (arrays.1, ·)
      else (addEntry arrays.1 parsed).map (·, arrays.2)
    else some arrays

/-- `calloc`, if there is anything to store. -/
def allocate (count : Nat) (array : AtmosUtil.MetadataArray) : AtmosUtil.MetadataArray :=
  if 0 < count then (List.replicate count zeroedMetadata, count) else array

/-- `AtmosObjectMetadata_parse_usermeta`, given the children of the element. -/
def parseUsermeta (self : AtmosObjectMetadata) (children : List Node) :
    Option AtmosObjectMetadata :=
  let counts := children.foldl (countChild xml) (0, 0)
  let metadata := allocate counts.1 self.metadata
  let listableMeta := allocate counts.2 self.listableMeta
  (children.foldlM (fillChild xml) ((metadata.1, 0), (listableMeta.1, 0))).map fun arrays =>
    { self with
      metadata := (arrays.1.1, metadata.2)
      listableMeta := (arrays.2.1, listableMeta.2) }

/-! ## The two loops -/

/-- The entry of an element, if it is one. -/
def usermetaItem (child : Node) : Option ParsedMeta :=
  child.onElement none fun name children =>
    if name = dirNodeMetadata then some (AtmosUtil.parseMeta xml children .zero) else none

/-- A slot after an entry is copied to it. -/
def storeParsed (parsed : ParsedMeta) (slot : MetadataSlot) : MetadataSlot :=
  (setEntry parsed.name parsed.value slot).getD slot

theorem addEntry_eq (array : AtmosUtil.MetadataArray) (parsed : ParsedMeta) :
    addEntry array parsed = appendSlot storeParsed array parsed := by
  rw [addEntry, appendSlot]
  cases array.1[array.2]? with
  | none => rfl
  | some slot =>
      obtain ⟨slot', hset, -⟩ := setEntry_eq parsed.name parsed.value slot
      simp only [Option.bind_some, Option.bind_eq_bind, storeParsed, hset]
      rfl

/-- Count an entry. -/
def countItem (counts : Nat × Nat) (parsed : ParsedMeta) : Nat × Nat :=
  if parsed.listable then (counts.1, counts.2 + 1) else (counts.1 + 1, counts.2)

/-- Copy an entry to the array of its kind. -/
def fillItem (arrays : AtmosUtil.MetadataArray × AtmosUtil.MetadataArray) (parsed : ParsedMeta) :
    Option (AtmosUtil.MetadataArray × AtmosUtil.MetadataArray) :=
  if parsed.listable then (appendSlot storeParsed arrays.2 parsed).map (arrays.1, ·)
  else (appendSlot storeParsed arrays.1 parsed).map (·, arrays.2)

theorem countChild_eq (counts : Nat × Nat) (child : Node) :
    countChild xml counts child = (usermetaItem xml child).elim counts (countItem counts) := by
  cases child with
  | element name children =>
      by_cases hname : name = dirNodeMetadata
      · simp [countChild, usermetaItem, Node.onElement, hname, countItem]
      · simp [countChild, usermetaItem, Node.onElement, hname]
  | _ => rfl

theorem fillChild_eq (arrays : AtmosUtil.MetadataArray × AtmosUtil.MetadataArray) (child : Node) :
    fillChild xml arrays child = (usermetaItem xml child).elim (some arrays) (fillItem arrays) := by
  cases child with
  | element name children =>
      by_cases hname : name = dirNodeMetadata
      · simp [fillChild, usermetaItem, Node.onElement, hname, fillItem, addEntry_eq]
      · simp [fillChild, usermetaItem, Node.onElement, hname]
  | _ => rfl

/-- The first loop counts the entries of both kinds. -/
theorem foldl_countItem (items : List ParsedMeta) (counts : Nat × Nat) :
    items.foldl countItem counts =
      (counts.1 + (items.filter (!·.listable)).length,
        counts.2 + (items.filter (·.listable)).length) := by
  induction items generalizing counts with
  | nil => rfl
  | cons parsed items ih =>
      rw [List.foldl_cons, ih, countItem, List.filter_cons, List.filter_cons]
      cases parsed.listable with
      | true =>
          simp
          omega
      | false =>
          simp
          omega

/-- The second loop copies them, each kind to its array. -/
theorem foldlM_fillItem (items : List ParsedMeta)
    (arrays : AtmosUtil.MetadataArray × AtmosUtil.MetadataArray) :
    items.foldlM fillItem arrays =
      ((items.filter (!·.listable)).foldlM (appendSlot storeParsed) arrays.1).bind fun metadata =>
        ((items.filter (·.listable)).foldlM (appendSlot storeParsed) arrays.2).map
          (metadata, ·) := by
  induction items generalizing arrays with
  | nil => rfl
  | cons parsed items ih =>
      rw [List.foldlM_cons, fillItem, List.filter_cons, List.filter_cons]
      cases parsed.listable with
      | true =>
          rw [if_pos rfl, if_neg (by decide), if_pos rfl, List.foldlM_cons]
          cases appendSlot storeParsed arrays.2 parsed with
          | none =>
              cases (items.filter (!·.listable)).foldlM (appendSlot storeParsed) arrays.1 <;> rfl
          | some array => exact ih (arrays.1, array)
      | false =>
          rw [if_neg (by decide), if_pos (by decide), if_neg (by decide), List.foldlM_cons]
          cases appendSlot storeParsed arrays.1 parsed with
          | none => rfl
          | some array => exact ih (array, arrays.2)

/-- An array of the size of some entries, filled with these. -/
def filledArray (items : List ParsedMeta) (array : AtmosUtil.MetadataArray) :
    AtmosUtil.MetadataArray :=
  if items = [] then array else (items.map (storeParsed · zeroedMetadata), items.length)

/-- Allocating for some entries and storing them fills the array. -/
theorem foldlM_allocate (items : List ParsedMeta) (array : AtmosUtil.MetadataArray) :
    ∃ filled, items.foldlM (appendSlot storeParsed) ((allocate items.length array).1, 0) =
        some filled ∧
      (filled.1, (allocate items.length array).2) = filledArray items array := by
  by_cases hnil : items = []
  · subst hnil
    exact ⟨_, rfl, rfl⟩
  · have hlength : 0 < items.length := List.length_pos_iff.mpr hnil
    have hroom : 0 + items.length ≤ (List.replicate items.length zeroedMetadata).length := by simp
    rw [allocate, if_pos hlength, foldlM_appendSlot _ _ (Nat.zero_le _), if_pos hroom, filledArray,
      if_neg hnil, List.drop_zero, zipWith_replicate_of_le _ le_rfl]
    exact ⟨_, rfl, by simp⟩

/-- **The arrays of a listed object**: each is as large as its entries are many
and holds them in their order. -/
theorem parseUsermeta_eq (self : AtmosObjectMetadata) (children : List Node) :
    parseUsermeta xml self children =
      some { self with
        metadata := filledArray ((children.filterMap (usermetaItem xml)).filter (!·.listable))
          self.metadata
        listableMeta := filledArray ((children.filterMap (usermetaItem xml)).filter (·.listable))
          self.listableMeta } := by
  generalize hitems : children.filterMap (usermetaItem xml) = items
  have hcounts : children.foldl (countChild xml) (0, 0) =
      ((items.filter (!·.listable)).length, (items.filter (·.listable)).length) := by
    rw [foldl_items (countChild_eq xml), hitems, foldl_countItem, Nat.zero_add, Nat.zero_add]
  obtain ⟨metadata, hmetadata, hfilled⟩ :=
    foldlM_allocate (items.filter (!·.listable)) self.metadata
  obtain ⟨listableMeta, hlistable, hfilled'⟩ :=
    foldlM_allocate (items.filter (·.listable)) self.listableMeta
  simp only [parseUsermeta, hcounts, foldlM_items (fillChild_eq xml), hitems, foldlM_fillItem,
    hmetadata, hlistable, Option.bind_some, Option.map_some, hfilled, hfilled']

/-! ## One entry -/

/-- A slot shows the entry that is copied to it. -/
theorem view_storeParsed {parsed : ParsedMeta}
    (h : (⟨parsed.name, parsed.value⟩ : AtmosMetadata).FitsFields) (slot : MetadataSlot) :
    (storeParsed parsed slot).view = some ⟨parsed.name, parsed.value⟩ := by
  obtain ⟨slot', hset, hview⟩ := setEntry_view h slot
  rw [storeParsed, hset]
  exact hview

variable {xml}

/-- What an element with a text sets. -/
theorem parseMetaChild_textElement (hxml : xml.Documented) (parsed : ParsedMeta)
    (name text : CStr) :
    AtmosUtil.parseMetaChild xml parsed (.textElement name text) =
      if name = dirNodeName then { parsed with name := text.take atmosMetaNameMax }
      else if name = dirNodeValue then { parsed with value := text.take atmosMetaValueMax }
      else if name = dirNodeListable then { parsed with listable := text = bytes "true" }
      else parsed := by
  simp only [AtmosUtil.parseMetaChild, hxml.content, Node.content_textElement, Option.elim_some]
  rfl

/-- A `Metadata` element with an entry in its children. -/
def ListsEntry (listable : CStr) (node : Node) (entry : AtmosMetadata) : Prop :=
  ∃ children, node = .element dirNodeMetadata children ∧
    elements children = [.textElement dirNodeName entry.name,
      .textElement dirNodeValue entry.value, .textElement dirNodeListable listable]

/-- Such an element is read as this entry. -/
theorem usermetaItem_of_listsEntry (hxml : xml.Documented) {listable : CStr} {node : Node}
    {entry : AtmosMetadata} (hfits : entry.FitsFields) (h : ListsEntry listable node entry) :
    usermetaItem xml node = some ⟨entry.name, entry.value, listable = bytes "true"⟩ := by
  obtain ⟨children, rfl, hchildren⟩ := h
  have hname : entry.name.take atmosMetaNameMax = entry.name :=
    List.take_of_length_le hfits.name_length.le
  have hvalue : entry.value.take atmosMetaValueMax = entry.value :=
    List.take_of_length_le hfits.value_length.le
  have hskip : ∀ parsed child, child.isElement = false →
      AtmosUtil.parseMetaChild xml parsed child = parsed := fun _ _ helement =>
    Node.onElement_of_not helement _ _
  have hparsed : AtmosUtil.parseMeta xml children .zero =
      ⟨entry.name, entry.value, listable = bytes "true"⟩ := by
    rw [AtmosUtil.parseMeta, foldl_elements hskip, hchildren]
    have hnames : dirNodeValue ≠ dirNodeName ∧ dirNodeListable ≠ dirNodeName ∧
        dirNodeListable ≠ dirNodeValue := by decide
    simp only [List.foldl_cons, List.foldl_nil, parseMetaChild_textElement hxml, hname, hvalue,
      if_pos, if_neg hnames.1, if_neg hnames.2.1, if_neg hnames.2.2]
  rw [usermetaItem, Node.onElement, if_pos rfl, hparsed]

/-- An element that is no entry, or no element at all, is skipped. -/
theorem usermetaItem_of_not_element {node : Node} (h : node.isElement = false) :
    usermetaItem xml node = none := Node.onElement_of_not h _ _

/-- The entries of a list are those of its elements. -/
theorem filterMap_usermetaItem_elements (children : List Node) :
    children.filterMap (usermetaItem xml) = (elements children).filterMap (usermetaItem xml) := by
  rw [elements, List.filterMap_filter]
  congr 1
  funext child
  cases helement : child.isElement with
  | true => rfl
  | false => exact usermetaItem_of_not_element helement

/-- **A list of listable entries** is read back from its elements. -/
theorem filterMap_usermetaItem (hxml : xml.Documented) {children : List Node}
    {entries : List AtmosMetadata} (hfits : ∀ e ∈ entries, e.FitsFields)
    (h : List.Forall₂ (ListsEntry (bytes "true")) (elements children) entries) :
    children.filterMap (usermetaItem xml) =
      entries.map fun entry => ⟨entry.name, entry.value, true⟩ := by
  rw [filterMap_usermetaItem_elements]
  generalize elements children = nodes at h
  induction h with
  | nil => rfl
  | @cons node entry nodes entries hentry _ ih =>
      have hitem := usermetaItem_of_listsEntry hxml (hfits entry (List.mem_cons_self ..)) hentry
      rw [List.filterMap_cons_some hitem, List.map_cons,
        ih fun e he => hfits e (List.mem_cons_of_mem _ he)]
      rfl

end Usermeta

end AtmosObjectMetadata

end Atmos
