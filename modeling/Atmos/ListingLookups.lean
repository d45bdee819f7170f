import Atmos.ObjectLookups
import Atmos.ResponseTexts

/-!
# Looking up what is listed

The entries of a directory and the objects of a listing come with the metadata of their
objects, in lists of `Metadata` elements.

* `shows_userArray` — what the arrays of an entry show;
* `listing_lookups` — lookups in the entries find what the objects were written with.
-/

namespace Atmos

open ByteText FixedMemory XmlTree AtmosUtil

/-- `AtmosDirectoryEntry_get_metadata_value` -/
def AtmosDirectoryEntry.getMetadataValue (self : AtmosDirectoryEntry) (name : CStr)
    (listable : Bool) : Option (Option CStr) :=
  AtmosUtil.getMetadataValue
    (if listable then self.parent.listableMeta else self.parent.metadata) name

/-- `AtmosObjectListing_get_metadata_value` -/
def AtmosObjectListing.getMetadataValue (self : AtmosObjectListing) (name : CStr)
    (listable : Bool) : Option (Option CStr) :=
  AtmosUtil.getMetadataValue
    (if listable then self.parent.listableMeta else self.parent.metadata) name

/-- The entry in a `Metadata` element. -/
def ListedText.entry (texts : ListedText) : AtmosMetadata where
  name := texts.name
  value := texts.value

/-- The children of an element list the metadata an object was written with. -/
structure ListsObject (xml : XmlText) (children : List Node)
    (write : AtmosWriteObjectRequest) : Prop where
  metadata : (storedTexts xml false children).map ListedText.entry = write.metadata
  listableMeta : (storedTexts xml true children).map ListedText.entry = write.listableMeta

/-- An array that was made for some texts shows them. -/
theorem shows_arrayOf {texts : List ListedText} (hfits : ∀ t ∈ texts, t.Fits)
    (hnul : ∀ t ∈ texts, t.NulFree) : Shows (arrayOf texts) (texts.map ListedText.entry) := by
  refine ⟨(List.length_map _).symm, ?_⟩
  dsimp only [arrayOf]
  rw [List.take_of_length_le (List.length_map _).le, List.map_map, List.map_map]
  apply List.map_congr_left
  intro t ht
  have hname : t.parsed.name = t.name := List.take_of_length_le (hfits t ht).name.le
  have hvalue : t.parsed.value = t.value := List.take_of_length_le (hfits t ht).value.le
  have hentry : (⟨t.parsed.name, t.parsed.value⟩ : AtmosMetadata).FitsFields := by
    rw [hname, hvalue]
    exact ⟨(hnul t ht).name, (hnul t ht).value, (hfits t ht).name, (hfits t ht).value⟩
  rw [Function.comp_apply, AtmosObjectMetadata.view_storeParsed hentry, hname, hvalue]
  rfl

section Entries

variable {time : TimeLibrary} {curl : Curl} {xml : LibxmlReader} (hxml : xml.Documented)

include hxml

/-- **The arrays of an entry** show the metadata its object was written with. -/
theorem shows_userArray {ρ : Type} {step : ρ → Node → Option ρ} (view : ρ → AtmosObjectMetadata)
    (hstep : ∀ {entry entry' : ρ} {child : Node}, step entry child = some entry' →
      listStep time curl xml.toXmlText (view entry) child = some (view entry'))
    {children : List Node} (hfits : MetadataFits xml.toXmlText children) {entry entry' : ρ}
    (h : children.foldlM step entry = some entry') (hzero : view entry = .zero)
    {write : AtmosWriteObjectRequest} (hlists : ListsObject xml.toXmlText children write) :
    ∀ listable, Shows (userArray listable (view entry'))
      (if listable then write.listableMeta else write.metadata) := by
  have hshows : ∀ listable, Shows (userArray listable (view entry'))
      ((storedTexts xml.toXmlText listable children).map ListedText.entry) := by
    intro listable
    rw [userArray_foldlM time curl hstep h hzero listable]
    exact shows_arrayOf (hfits.user listable) (nulFree_storedTexts hxml.content_nul)
  intro listable
  cases listable with
  | false => exact hlists.metadata ▸ hshows false
  | true => exact hlists.listableMeta ▸ hshows true

/-- An entry of a directory. -/
theorem directoryEntry_lookups {children : List Node}
    (hfits : AtmosDirectoryEntry.FitsTexts xml children) :
    ∃ entry, AtmosDirectoryEntry.parseEntry time curl xml children = some entry ∧
      ∀ write, ListsObject xml.toXmlText children write → ∀ name listable,
        entry.getMetadataValue name listable = some (firstValue
          (if listable then write.listableMeta else write.metadata) name) := by
  obtain ⟨entry, hentry, -⟩ := (AtmosDirectoryEntry.parseEntry_holds_iff hxml children).mpr hfits
  refine ⟨entry, hentry, fun write hlists name listable => ?_⟩
  have hshows := shows_userArray hxml AtmosDirectoryEntry.parent
    (fun h => (AtmosDirectoryEntry.parseChild_eq_some h).1) hfits.metadata hentry rfl hlists
  exact findsMetadata_of_shows (hshows listable) name

/-- An object of a listing. -/
theorem objectListing_lookups {children : List Node}
    (hfits : AtmosObjectListing.FitsTexts xml children) :
    ∃ entry, AtmosObjectListing.parseEntry time curl xml children = some entry ∧
      ∀ write, ListsObject xml.toXmlText children write → ∀ name listable,
        entry.getMetadataValue name listable = some (firstValue
          (if listable then write.listableMeta else write.metadata) name) := by
  obtain ⟨entry, hentry, -⟩ := (AtmosObjectListing.parseEntry_holds_iff hxml children).mpr hfits
  refine ⟨entry, hentry, fun write hlists name listable => ?_⟩
  have hshows := shows_userArray hxml AtmosObjectListing.parent
    (fun h => (AtmosObjectListing.parseChild_eq_some h).1) hfits.metadata hentry rfl hlists
  exact findsMetadata_of_shows (hshows listable) name

end Entries

/-- **What is listed with an object is found on it.**  A directory or a listing whose texts fit
their fields is read; it has an entry for every element, and in the entry every lookup
gives the value in the first entry of that name and kind that the element lists. -/
theorem listing_lookups {time : TimeLibrary} {curl : Curl} {xml : LibxmlReader}
    (hxml : xml.Documented) (doc : xml.Document) :
    ((∀ node ∈ entryNodes xml doc (bytes "//cos:DirectoryList") (bytes "//cos:DirectoryEntry"),
        AtmosDirectoryEntry.FitsTexts xml node.children) →
      ∃ entries, AtmosListDirectoryResponse.parse time curl xml doc [] = some entries ∧
        List.Forall₂ (fun node entry => ∀ write, ListsObject xml.toXmlText node.children write →
            ∀ name listable, entry.getMetadataValue name listable = some (firstValue
              (if listable then write.listableMeta else write.metadata) name))
          (entryNodes xml doc (bytes "//cos:DirectoryList") (bytes "//cos:DirectoryEntry"))
          entries) ∧
    ((∀ node ∈ entryNodes xml doc (bytes "//cos:ListObjectsResponse") (bytes "//cos:Object"),
        AtmosObjectListing.FitsTexts xml node.children) →
      ∃ results, AtmosListObjectsResponse.parse time curl xml doc [] = some results ∧
        List.Forall₂ (fun node result => ∀ write, ListsObject xml.toXmlText node.children write →
            ∀ name listable, result.getMetadataValue name listable = some (firstValue
              (if listable then write.listableMeta else write.metadata) name))
          (entryNodes xml doc (bytes "//cos:ListObjectsResponse") (bytes "//cos:Object"))
          results) := by
  constructor
  · intro hfits
    rw [AtmosListDirectoryResponse.parse, parseListing_nil, mapM_forall₂_iff]
    exact fun node hnode => directoryEntry_lookups hxml (hfits node hnode)
  · intro hfits
    rw [AtmosListObjectsResponse.parse, parseListing_nil, mapM_forall₂_iff]
    exact fun node hnode => objectListing_lookups hxml (hfits node hnode)

/-- A `Metadata` element without a `Listable` element. -/
def unlistedElement (entry : AtmosMetadata) : Node :=
  .element dirNodeMetadata
    [.textElement dirNodeName entry.name, .textElement dirNodeValue entry.value]

/-- The children of the entry for the photo. -/
def photoEntry : List Node :=
  [.textElement dirNodeObjectId (bytes "4b1f"), .textElement dirNodeFileType (bytes "regular"),
    .textElement dirNodeFileName (bytes "photo.jpg"),
    .element dirNodeSystemMetadataList [unlistedElement ⟨bytes "size", bytes "3"⟩],
    .element dirNodeUserMetadataList
      [unlistedElement ⟨bytes "title", bytes "a, b"⟩,
        metadataElement ⟨bytes "color", bytes "red"⟩,
        unlistedElement ⟨bytes "title", bytes "c"⟩]]

theorem listsObject_photo : ListsObject LibxmlReader.blind.toXmlText photoEntry photo where
  metadata := by rfl
  listableMeta := by rfl

theorem fitsTexts_photo : AtmosDirectoryEntry.FitsTexts LibxmlReader.blind photoEntry where
  objectId := by
    intro text h
    obtain rfl : bytes "4b1f" = text := Option.some.inj h
    decide
  filename := by
    intro text h
    obtain rfl : bytes "photo.jpg" = text := Option.some.inj h
    decide
  metadata := by
    constructor
    · intro child hchild texts htexts
      have hlisted : photoEntry.flatMap (systemTexts LibxmlReader.blind.toXmlText) =
          [⟨bytes "size", bytes "3", false⟩] := by rfl
      have hmem := List.mem_flatMap.mpr ⟨child, hchild, htexts⟩
      rw [hlisted] at hmem
      obtain rfl := List.mem_singleton.mp hmem
      exact ⟨⟨by decide, by decide⟩, by decide⟩
    · intro listable texts htexts
      have hentry := List.mem_map.mpr ⟨texts, htexts, (rfl : texts.entry = _)⟩
      have hstored : texts.entry ∈ photo.metadata ++ photo.listableMeta := by
        cases listable with
        | false => exact List.mem_append_left _ (listsObject_photo.metadata ▸ hentry)
        | true => exact List.mem_append_right _ (listsObject_photo.listableMeta ▸ hentry)
      have hlengths : ∀ e ∈ photo.metadata ++ photo.listableMeta,
          e.name.length < atmosMetaNameMax ∧ e.value.length < atmosMetaValueMax := by decide
      exact ⟨(hlengths _ hstored).1, (hlengths _ hstored).2⟩

/-- An entry without metadata. -/
def folderEntry : List Node := [.textElement dirNodeFileType (bytes "directory")]

theorem fitsTexts_folder : AtmosDirectoryEntry.FitsTexts LibxmlReader.blind folderEntry where
  objectId := fun text h => nomatch (h : none = some text)
  filename := fun text h => nomatch (h : none = some text)
  metadata := by
    constructor
    · intro child hchild texts htexts
      obtain rfl := List.mem_singleton.mp hchild
      exact absurd htexts List.not_mem_nil
    · intro listable texts htexts
      exact absurd htexts List.not_mem_nil

/-- The document of a directory with the photo and a folder. -/
def photoDirectory : LibxmlReader.blind.Document :=
  (bytes "DirectoryList", [.element (bytes "DirectoryEntry") photoEntry,
    .element (bytes "DirectoryEntry") folderEntry])

theorem listing_lookups_directory :
    ∃ inFile inFolder,
      AtmosListDirectoryResponse.parse .greenwich .standard LibxmlReader.blind photoDirectory [] =
        some [inFile, inFolder] ∧
      inFile.getMetadataValue (bytes "title") false = some (some (bytes "a, b")) ∧
      inFile.getMetadataValue (bytes "title") true = some none ∧
      inFolder.getMetadataValue (bytes "title") false = some none := by
  have hnodes : entryNodes LibxmlReader.blind photoDirectory (bytes "//cos:DirectoryList")
      (bytes "//cos:DirectoryEntry") = photoDirectory.2 := by rfl
  have hfits : ∀ node ∈ entryNodes LibxmlReader.blind photoDirectory
      (bytes "//cos:DirectoryList") (bytes "//cos:DirectoryEntry"),
      AtmosDirectoryEntry.FitsTexts LibxmlReader.blind node.children := by
    intro node hnode
    rw [hnodes] at hnode
    rcases List.mem_cons.mp hnode with rfl | hnode
    · exact fitsTexts_photo
    · rw [List.mem_singleton.mp hnode]
      exact fitsTexts_folder
  obtain ⟨entries, hparse, hentries⟩ := (@listing_lookups .greenwich .standard
    LibxmlReader.blind LibxmlReader.blind_documented photoDirectory).1 hfits
  rw [hnodes] at hentries
  rcases hentries with _ | ⟨hfile, _ | ⟨hfolder, _ | _⟩⟩
  have hempty : ListsObject LibxmlReader.blind.toXmlText folderEntry
      { metadata := [], listableMeta := [], acl := [], checksum := none } := ⟨rfl, rfl⟩
  exact ⟨_, _, hparse, hfile photo listsObject_photo _ _,
    hfile photo listsObject_photo _ _, hfolder _ hempty _ _⟩

end Atmos
