import Atmos.MetadataRoundTrip
import Atmos.ObjectListing

/-!
# Listable metadata on two paths

The listable metadata of an object comes back in the header
`x-emc-listable-meta` and, when the object is listed, as XML.  The header's
reader filters it by the table of system names; the reader of a listing does
not.

* `metaItems_reported` — what the header's reader finds in a header as the
  writer makes it;
* `listing_returns` — a listing returns all entries;
* `listable_paths_agree_iff` — so both paths return the entries exactly when
  they are at most 127, none has a system name and, in plain mode, the writer
  takes all of them and none starts with a space.
-/

namespace Atmos

open ByteText FixedMemory XmlTree AtmosUtil

/-! ## What is sent and what is returned -/

/-- The response has the header the writer makes for some listable entries. -/
structure ReportsListable (rest : RestClient) (curl : Curl) (utf8 : Bool)
    (entries : List AtmosMetadata) (headers : List CStr) : Prop where
  mode : isUtf8 rest headers = utf8
  header : ∃ request, setMetadataHeader curl entries true utf8 (.init [] .put) = some request ∧
    rest.getHeaderValue headers atmosHeaderListableMeta =
      rest.getHeaderValue request.headers atmosHeaderListableMeta

/-- An array shows some entries. -/
structure Shows (array : MetadataArray) (entries : List AtmosMetadata) : Prop where
  count : array.2 = entries.length
  view : (array.1.take array.2).map MetadataSlot.view = entries.map some

/-- The headers are read into the arrays, and the array of listable metadata
shows the entries. -/
def HeaderReturns (rest : RestClient) (curl : Curl) (headers : List CStr)
    (metadata : MetadataArray) (slots : List MetadataSlot) (entries : List AtmosMetadata) : Prop :=
  ∃ metadata' array, parseUserMetaHeaders rest curl headers metadata (slots, 0) =
    some (metadata', array) ∧ Shows array entries

/-- A `UserMetadataList` is read, and the array of listable metadata shows the
entries. -/
def ListingReturns (xml : XmlText) (children : List Node) (entries : List AtmosMetadata) : Prop :=
  ∃ object, AtmosObjectMetadata.parseUsermeta xml .zero children = some object ∧
    Shows object.listableMeta entries

/-- An entry that survives the way through the header. -/
structure Transportable (utf8 : Bool) (entry : AtmosMetadata) : Prop where
  not_system : isSystemMetaName entry.name = false
  written : isWritten utf8 entry = true
  spaces : utf8 = false → entry.name.head? ≠ some space ∧ entry.value.head? ≠ some space

/-! ## One entry -/

/-- A name or a value, as the writer puts it into the header. -/
def wireText (utf8 : Bool) (s : CStr) : CStr := if utf8 then PercentEncoding.encode s else s

/-- What the reader makes of it: only without encoding it sees leading spaces. -/
def readText (utf8 : Bool) (s : CStr) : CStr := if utf8 then s else s.dropWhile (· == space)

/-- The text of an entry. -/
def entryWire (utf8 : Bool) (entry : AtmosMetadata) : CStr :=
  wireText utf8 entry.name ++ equals :: wireText utf8 entry.value

theorem metadataEntry_eq {curl : Curl} (hcurl : curl.Documented) (utf8 : Bool)
    (entry : AtmosMetadata) : metadataEntry curl utf8 entry = some (entryWire utf8 entry) := by
  cases utf8 with
  | false => simp [metadataEntry, entryWire, wireText]
  | true => simp [metadataEntry, entryWire, wireText, hcurl.escape]

/-- Texts the writer takes contain no delimiters. -/
theorem wireText_delimiters {utf8 : Bool} {entry : AtmosMetadata}
    (h : isWritten utf8 entry = true) :
    comma ∉ wireText utf8 entry.name ∧ equals ∉ wireText utf8 entry.name ∧
      comma ∉ wireText utf8 entry.value := by
  cases utf8 with
  | false =>
      have hchars := not_or.mp fun hbad => isWritten_iff.mp h ⟨rfl, hbad⟩
      have hname := ne_of_metaCharCheck (Bool.eq_false_iff.mpr hchars.1)
      have hvalue := ne_of_metaCharCheck (Bool.eq_false_iff.mpr hchars.2)
      exact ⟨hname.1, hname.2.1, hvalue.1⟩
  | true =>
      exact ⟨PercentEncoding.notMem_encode (by decide) (by decide) _,
        PercentEncoding.notMem_encode (by decide) (by decide) _,
        PercentEncoding.notMem_encode (by decide) (by decide) _⟩

theorem comma_notMem_entryWire {utf8 : Bool} {entry : AtmosMetadata}
    (h : isWritten utf8 entry = true) : comma ∉ entryWire utf8 entry := by
  obtain ⟨hname, -, hvalue⟩ := wireText_delimiters h
  intro hmem
  rcases List.mem_append.mp hmem with hmem | hmem
  · exact hname hmem
  · rcases List.mem_cons.mp hmem with heq | hmem
    · exact absurd heq (by decide)
    · exact hvalue hmem

/-- The reader unescapes what it has stripped of spaces. -/
theorem storedText_wireText {curl : Curl} (hcurl : curl.Documented) (utf8 : Bool) {s : CStr}
    (hnul : 0 ∉ s) :
    storedText curl utf8 ((wireText utf8 s).dropWhile (· == space)) = some (readText utf8 s) := by
  cases utf8 with
  | false => rfl
  | true =>
      rw [wireText, if_pos rfl, dropWhile_space (head_encode s)]
      exact storedText_encode hcurl hnul

theorem isSystemMetaName_wireText (utf8 : Bool) (s : CStr) :
    isSystemMetaName ((wireText utf8 s).dropWhile (· == space)) =
      isSystemMetaName (readText utf8 s) := by
  cases utf8 with
  | false => rfl
  | true =>
      rw [wireText, if_pos rfl, dropWhile_space (head_encode s)]
      exact isSystemMetaName_encode s

/-- A text that is read as it was has no leading space. -/
theorem readText_eq_iff {s : CStr} : readText false s = s ↔ s.head? ≠ some space := by
  constructor
  · intro h
    rw [← h]
    exact head?_dropWhile_ne space s
  · exact dropWhile_space

/-! ## The header -/

/-- The piece of the header for an entry: the place of a skipped first entry
stays empty. -/
def headerPiece (utf8 : Bool) (entry : AtmosMetadata) : CStr :=
  if isWritten utf8 entry then entryWire utf8 entry else []

theorem comma_notMem_headerPiece (utf8 : Bool) (entry : AtmosMetadata) :
    comma ∉ headerPiece utf8 entry := by
  unfold headerPiece
  split
  · rename_i hwritten
    exact comma_notMem_entryWire hwritten
  · exact List.not_mem_nil

section Header

variable {rest : RestClient} {curl : Curl} (hcurl : curl.Documented) {utf8 : Bool}
  {entry : AtmosMetadata} {entries : List AtmosMetadata} {headers : List CStr}

include hcurl

/-- The value of the header the writer makes. -/
theorem headerValue_reported (h : ReportsListable rest curl utf8 (entry :: entries) headers) :
    rest.getHeaderValue headers atmosHeaderListableMeta =
      some (([comma].intercalate (headerPiece utf8 entry ::
        (entries.filter (isWritten utf8)).map (entryWire utf8))).dropWhile (· == space)) := by
  obtain ⟨request, hset, hvalue⟩ := h.header
  generalize hpieces : headerPiece utf8 entry ::
    (entries.filter (isWritten utf8)).map (entryWire utf8) = pieces
  have hloop := @metadataLoop_cons curl utf8 (entryWire utf8) entry entries
    (fun e _ => metadataEntry_eq hcurl utf8 e) (metadataHeaderName true ++ bytes ": ")
  rw [setMetadataHeader, if_neg (by simp)] at hset
  simp only [hloop] at hset
  have hline : request.headers =
      [headerLine atmosHeaderListableMeta ([comma].intercalate pieces)] := by
    rw [← Option.some.inj hset, ← hpieces]
    rfl
  have hname : colon ∉ atmosHeaderListableMeta := by decide
  have hfound : nameIs atmosHeaderListableMeta
      (headerLine atmosHeaderListableMeta ([comma].intercalate pieces)) = true := by
    rw [nameIs_headerLine hname]
    exact decide_eq_true rfl
  rw [hvalue, hline, rest.getHeaderValue_cons, if_pos hfound, headerLine_eq,
    rest.headerValue_tail hname]
  exact congrArg some (List.dropWhile_cons_of_pos (by decide))

/-- The pieces of this header. -/
theorem metaFields_reported (h : ReportsListable rest curl utf8 (entry :: entries) headers) :
    metaFields rest headers atmosHeaderListableMeta =
      (headerPiece utf8 entry ::
        (entries.filter (isWritten utf8)).map (entryWire utf8)).modifyHead
          (List.dropWhile (· == space)) := by
  have hcomma : ∀ piece ∈ headerPiece utf8 entry ::
      (entries.filter (isWritten utf8)).map (entryWire utf8), comma ∉ piece := by
    intro piece hpiece
    rcases List.mem_cons.mp hpiece with rfl | hpiece
    · exact comma_notMem_headerPiece utf8 entry
    · obtain ⟨e, he, rfl⟩ := List.mem_map.mp hpiece
      exact comma_notMem_entryWire (List.mem_filter.mp he).2
  rw [metaFields, headerValue_reported hcurl h, Option.elim_some, splitOn_dropWhile (by decide),
    List.splitOn_intercalate comma hcomma (List.cons_ne_nil _ _)]

/-- **What the reader finds in the header**: the pieces without those that have
a system name. -/
theorem metaItems_reported (h : ReportsListable rest curl utf8 (entry :: entries) headers) :
    metaItems rest headers atmosHeaderListableMeta =
      ((headerPiece utf8 entry :: (entries.filter (isWritten utf8)).map (entryWire utf8)).map
        fun field => (entryName field, entryValue field)).filter
          fun entry => entry.1 ∉ atmosSystemMetaNames := by
  obtain ⟨hname, hvalue⟩ := metaPiece_dropWhile (headerPiece utf8 entry)
  rw [metaItems, metaFields_reported hcurl h, flatMap_metaEntries, List.modifyHead_cons,
    List.map_cons, List.map_cons, hname, hvalue]

/-- A header that is read back has every entry in it, and drops none. -/
theorem metaItems_of_length (h : ReportsListable rest curl utf8 (entry :: entries) headers)
    (hlength : (metaItems rest headers atmosHeaderListableMeta).length = entries.length + 1) :
    (∀ e ∈ entries, isWritten utf8 e = true) ∧
    (∀ e ∈ entry :: entries, isSystemMetaName (entryName (headerPiece utf8 e)) = false) ∧
    metaItems rest headers atmosHeaderListableMeta = (entry :: entries).map fun e =>
      (entryName (headerPiece utf8 e), entryValue (headerPiece utf8 e)) := by
  have hitems := metaItems_reported hcurl h
  have hle : (metaItems rest headers atmosHeaderListableMeta).length ≤
      (entries.filter (isWritten utf8)).length + 1 := by
    rw [hitems]
    refine (List.length_filter_le ..).trans (le_of_eq ?_)
    rw [List.length_map, List.length_cons, List.length_map]
  have hfilter : (entries.filter (isWritten utf8)).length = entries.length :=
    le_antisymm (List.length_filter_le ..) (by omega)
  have hwritten := List.length_filter_eq_length_iff.mp hfilter
  have hpieces : (entries.filter (isWritten utf8)).map (entryWire utf8) =
      entries.map (headerPiece utf8) := by
    rw [List.filter_eq_self.mpr hwritten]
    exact List.map_congr_left fun e he => (if_pos (hwritten e he)).symm
  rw [hpieces, ← List.map_cons, List.map_map] at hitems
  have hall := List.length_filter_eq_length_iff.mp
    ((congrArg List.length hitems).symm.trans (hlength.trans (by simp)))
  refine ⟨hwritten, ?_, hitems.trans (List.filter_eq_self.mpr hall)⟩
  intro e he
  have hname := hall _ (List.mem_map_of_mem he)
  rw [decide_eq_true_eq] at hname
  rw [isSystemMetaName, Bool.eq_false_iff]
  exact fun hmem => hname (List.contains_iff_mem.mp hmem)

/-! ## Both directions -/

omit hcurl in
theorem AtmosMetadata.FitsFields.readText {entry : AtmosMetadata} (h : entry.FitsFields)
    (utf8 : Bool) :
    (⟨readText utf8 entry.name, readText utf8 entry.value⟩ : AtmosMetadata).FitsFields := by
  cases utf8 with
  | true => exact h
  | false =>
      have hsublist : ∀ s : CStr, (s.dropWhile (· == space)).Sublist s :=
        fun s => List.dropWhile_sublist _
      exact
        { name_nul := fun hmem => h.name_nul ((hsublist _).subset hmem)
          value_nul := fun hmem => h.value_nul ((hsublist _).subset hmem)
          name_length := (hsublist _).length_le.trans_lt h.name_length
          value_length := (hsublist _).length_le.trans_lt h.value_length }

/-- What a slot shows for a piece of the header. -/
theorem view_headerPiece {e : AtmosMetadata} (hfits : e.FitsFields) (slot : MetadataSlot) :
    (storeEntry curl utf8 (entryName (headerPiece utf8 e), entryValue (headerPiece utf8 e))
      slot).view =
      some (if isWritten utf8 e then ⟨readText utf8 e.name, readText utf8 e.value⟩
        else ⟨[], []⟩) := by
  unfold headerPiece
  split
  · rename_i hwritten
    obtain ⟨-, hequals, -⟩ := wireText_delimiters hwritten
    rw [entryWire, entryName_text hequals, entryValue_text hequals]
    exact view_storeEntry_of_stored (storedText_wireText hcurl utf8 hfits.name_nul)
      (storedText_wireText hcurl utf8 hfits.value_nul) (hfits.readText utf8) slot
  · have hempty : storedText curl utf8 [] = some [] := by
      have hstored := storedText_wireText hcurl utf8 List.not_mem_nil
      cases utf8 <;> exact hstored
    exact @view_storeEntry_of_stored curl utf8 ⟨[], []⟩ _ _ hempty hempty
      ⟨List.not_mem_nil, List.not_mem_nil, by decide, by decide⟩ slot

/-- An entry that a slot shows for its own piece could be transported. -/
theorem transportable_of_view {e : AtmosMetadata} (hfits : e.FitsFields)
    (hsystem : isSystemMetaName (entryName (headerPiece utf8 e)) = false) {slot : MetadataSlot}
    (hslot : (storeEntry curl utf8
      (entryName (headerPiece utf8 e), entryValue (headerPiece utf8 e)) slot).view = some e) :
    Transportable utf8 e := by
  rw [view_headerPiece hcurl hfits] at hslot
  have heq := Option.some.inj hslot
  by_cases hwritten : isWritten utf8 e = true
  · rw [if_pos hwritten] at heq
    have hname : readText utf8 e.name = e.name := congrArg AtmosMetadata.name heq
    have hvalue : readText utf8 e.value = e.value := congrArg AtmosMetadata.value heq
    rw [headerPiece, if_pos hwritten, entryWire,
      entryName_text (wireText_delimiters hwritten).2.1, isSystemMetaName_wireText, hname]
      at hsystem
    refine ⟨hsystem, hwritten, ?_⟩
    rintro rfl
    exact ⟨readText_eq_iff.mp hname, readText_eq_iff.mp hvalue⟩
  · -- a skipped entry leaves an empty one behind, which the writer takes
    rw [if_neg hwritten] at heq
    have hempty : isWritten utf8 ⟨[], []⟩ = true := by
      cases utf8 <;> rfl
    exact absurd (heq ▸ hempty) hwritten

/-- Entries that come back could be transported. -/
theorem transportable_of_returns {entries : List AtmosMetadata}
    (h : ReportsListable rest curl utf8 entries headers) (hfits : ∀ e ∈ entries, e.FitsFields)
    {metadata : MetadataArray} {slots : List MetadataSlot}
    (hreturns : HeaderReturns rest curl headers metadata slots entries) :
    entries.length ≤ slots.length ∧ ∀ e ∈ entries, Transportable utf8 e := by
  cases entries with
  | nil => exact ⟨Nat.zero_le _, fun e he => absurd he List.not_mem_nil⟩
  | cons entry entries =>
      obtain ⟨metadata', array, hparse, hshows⟩ := hreturns
      obtain ⟨_, -, hparse⟩ := Option.bind_eq_some_iff.mp hparse
      obtain ⟨listable, hlistable, heq⟩ := Option.bind_eq_some_iff.mp hparse
      cases heq
      obtain ⟨⟨-, hroom⟩, rfl⟩ := (parseMetaHeader_eq_some ..).mp hlistable
      have hcount : (metaItems rest headers atmosHeaderListableMeta).length =
        entries.length + 1 := hshows.count
      obtain ⟨hwritten, hsystem, hitems⟩ := metaItems_of_length hcurl h hcount
      have hlength : (List.zipWith (storeEntry curl utf8)
          (metaItems rest headers atmosHeaderListableMeta) slots).length =
            (metaItems rest headers atmosHeaderListableMeta).length := by
        rw [List.length_zipWith, Nat.min_eq_left hroom]
      have hview := hshows.view
      rw [h.mode, List.take_left' hlength, hitems] at hview
      have hfit : (entry :: entries).length ≤ slots.length := by
        rw [List.length_cons, ← hcount]
        exact hroom
      have hshown := @exists_view_of_map_zipWith _ _ (storeEntry curl utf8) _ _ MetadataSlot.view
        (entry :: entries) _ id slots hfit (hview.trans (by rw [List.map_id]))
      refine ⟨hfit, ?_⟩
      intro e he
      obtain ⟨slot, hslot⟩ := hshown e he
      exact transportable_of_view hcurl (hfits e he) (hsystem e he) hslot

/-- An entry that can be transported is read back. -/
theorem Transportable.readable {e : AtmosMetadata} (h : Transportable utf8 e)
    (hfits : e.FitsFields) :
    Readable curl utf8 e (wireText utf8 e.name) (wireText utf8 e.value) := by
  have hname := Nat.le_of_lt_succ hfits.name_length
  have hvalue := Nat.le_of_lt_succ hfits.value_length
  cases utf8 with
  | false =>
      have hchars := not_or.mp fun hbad => isWritten_iff.mp h.written ⟨rfl, hbad⟩
      obtain ⟨hspaces, hspaces'⟩ := h.spaces rfl
      exact PlainEntry.readable ⟨Bool.eq_false_iff.mpr hchars.1, Bool.eq_false_iff.mpr hchars.2,
        h.not_system, hspaces, hspaces', hname, hvalue⟩ curl
  | true =>
      exact EncodableEntry.readable hcurl ⟨hfits.name_nul, hfits.value_nul, h.not_system, hname,
        hvalue⟩

/-- Entries that can be transported come back. -/
theorem returns_of_transportable {entries : List AtmosMetadata}
    (h : ReportsListable rest curl utf8 entries headers) (hfits : ∀ e ∈ entries, e.FitsFields)
    {metadata : MetadataArray}
    (hmetadata : (parseMetaHeader rest curl headers atmosHeaderMeta metadata).isSome)
    {slots : List MetadataSlot} (hroom : entries.length ≤ slots.length)
    (htransportable : ∀ e ∈ entries, Transportable utf8 e) :
    HeaderReturns rest curl headers metadata slots entries := by
  obtain ⟨metadata', hmetadata'⟩ := Option.isSome_iff_exists.mp hmetadata
  suffices hlistable : ∃ array, parseMetaHeader rest curl headers atmosHeaderListableMeta
      (slots, 0) = some array ∧ Shows array entries by
    obtain ⟨array, harray, hshows⟩ := hlistable
    refine ⟨metadata', array, ?_, hshows⟩
    rw [parseUserMetaHeaders, hmetadata']
    simp only [Option.bind_eq_bind, Option.bind_some, harray]
  cases entries with
  | nil =>
      obtain ⟨request, hset, hvalue⟩ := h.header
      have hnone : rest.getHeaderValue headers atmosHeaderListableMeta = none := by
        rw [hvalue, ← Option.some.inj hset]
        rfl
      refine ⟨(slots, 0), ?_, rfl, rfl⟩
      rw [parseMetaHeader, hnone]
  | cons entry entries =>
      have hreadable := fun e he => (htransportable e he).readable hcurl (hfits e he)
      have hread := readsBack_intercalate (List.cons_ne_nil _ _) hreadable hroom
      have hwritten := fun e he => (htransportable e he).written
      have hpieces : headerPiece utf8 entry ::
          (entries.filter (isWritten utf8)).map (entryWire utf8) =
            (entry :: entries).map (entryWire utf8) := by
        rw [headerPiece, if_pos (hwritten entry (List.mem_cons_self ..)),
          List.filter_eq_self.mpr fun e he => hwritten e (List.mem_cons_of_mem _ he), List.map_cons]
      have hhead : ([comma].intercalate ((entry :: entries).map (entryWire utf8))).head? ≠
          some space := by
        have htext : entryWire utf8 entry ≠ [] :=
          List.append_ne_nil_of_right_ne_nil _ (List.cons_ne_nil _ _)
        rw [List.map_cons, head?_intercalate _ htext]
        exact head_entry (hreadable entry (List.mem_cons_self ..)).name_head _
      have hvalue := headerValue_reported hcurl h
      rw [hpieces, dropWhile_space hhead] at hvalue
      obtain ⟨-, stored, hparse, hview⟩ := hread
      have hstored : stored.length = (entry :: entries).length := by
        have hlength := congrArg List.length hview
        rwa [List.length_map, List.length_map] at hlength
      refine ⟨(stored ++ slots.drop (entry :: entries).length, (entry :: entries).length), ?_, rfl,
        ?_⟩
      · rw [parseMetaHeader, hvalue, h.mode]
        exact hparse
      · rw [List.take_left' hstored]
        exact hview

end Header

/-! ## The listing -/

/-- What a listing says about an entry. -/
def listableEntry (entry : AtmosMetadata) : ParsedMeta where
  name := entry.name
  value := entry.value
  listable := true

theorem shows_filledArray {entries : List AtmosMetadata} (hfits : ∀ e ∈ entries, e.FitsFields) :
    Shows (AtmosObjectMetadata.filledArray (entries.map listableEntry) ([], 0)) entries := by
  cases entries with
  | nil => exact ⟨rfl, rfl⟩
  | cons entry entries =>
      have hne : (entry :: entries).map listableEntry ≠ [] := List.cons_ne_nil _ _
      rw [AtmosObjectMetadata.filledArray, if_neg hne]
      refine ⟨List.length_map .., ?_⟩
      dsimp only
      rw [List.take_of_length_le (List.length_map ..).le, List.map_map, List.map_map]
      exact List.map_congr_left fun e he =>
        AtmosObjectMetadata.view_storeParsed (hfits e he) zeroedMetadata

/-- **The reader of a listing** drops no entry. -/
theorem listing_returns {xml : XmlText} (hxml : xml.Documented) {entries : List AtmosMetadata}
    (hfits : ∀ e ∈ entries, e.FitsFields) {children : List Node}
    (hlisted : List.Forall₂ (AtmosObjectMetadata.ListsEntry (bytes "true")) (elements children)
      entries) : ListingReturns xml children entries := by
  have hitems : children.filterMap (AtmosObjectMetadata.usermetaItem xml) =
      entries.map listableEntry :=
    AtmosObjectMetadata.filterMap_usermetaItem hxml hfits hlisted
  have hlistable : (entries.map listableEntry).filter (·.listable) =
      entries.map listableEntry := by
    apply List.filter_eq_self.mpr
    intro parsed hparsed
    obtain ⟨e, -, rfl⟩ := List.mem_map.mp hparsed
    rfl
  refine ⟨_, AtmosObjectMetadata.parseUsermeta_eq xml .zero children, ?_⟩
  simp only [hitems, hlistable]
  exact shows_filledArray hfits

/-! ## The two paths -/

/-- **Listable metadata on two paths.**  For every list of listable entries that
fit their fields, in either mode, the response with the writer's header and the
listing with the same entries both return the list exactly when it has at most
127 entries, all of which can be transported. -/
theorem listable_paths_agree_iff {rest : RestClient} {curl : Curl} (hcurl : curl.Documented)
    {xml : XmlText} (hxml : xml.Documented) {utf8 : Bool} {entries : List AtmosMetadata}
    (hfits : ∀ e ∈ entries, e.FitsFields) {headers : List CStr}
    (hreports : ReportsListable rest curl utf8 entries headers) {children : List Node}
    (hlisted : List.Forall₂ (AtmosObjectMetadata.ListsEntry (bytes "true")) (elements children)
      entries) {metadata : MetadataArray}
    (hmetadata : (parseMetaHeader rest curl headers atmosHeaderMeta metadata).isSome)
    {slots : List MetadataSlot} (hslots : slots.length = atmosMetaCountMax) :
    (HeaderReturns rest curl headers metadata slots entries ∧
        ListingReturns xml children entries) ↔
      entries.length ≤ atmosMetaCountMax ∧ ∀ e ∈ entries, Transportable utf8 e := by
  rw [← hslots]
  constructor
  · rintro ⟨hreturns, -⟩
    exact transportable_of_returns hcurl hreports hfits hreturns
  · rintro ⟨hroom, htransportable⟩
    exact ⟨returns_of_transportable hcurl hreports hfits hmetadata hroom htransportable,
      listing_returns hxml hfits hlisted⟩

/-- A `Metadata` element of a listing. -/
def metadataElement (entry : AtmosMetadata) : Node :=
  .element dirNodeMetadata [.textElement dirNodeName entry.name,
    .textElement dirNodeValue entry.value, .textElement dirNodeListable (bytes "true")]

theorem listsEntry_metadataElement (entry : AtmosMetadata) :
    List.Forall₂ (AtmosObjectMetadata.ListsEntry (bytes "true"))
      (elements [metadataElement entry]) [entry] :=
  .cons ⟨_, rfl, rfl⟩ .nil

/-- A response with the writer's header for one entry. -/
theorem reportsListable_single {entry : AtmosMetadata}
    (hwritten : isWritten false entry = true) :
    ReportsListable .plain .standard false [entry]
      [headerLine atmosHeaderListableMeta (entryWire false entry)] where
  mode := by
    have hname : nameIs atmosHeaderUtf8
        (headerLine atmosHeaderListableMeta (entryWire false entry)) = false := by
      rw [nameIs_headerLine (by decide)]
      decide
    rw [isUtf8, RestClient.getHeaderValue_cons, if_neg (by simp [hname])]
    rfl
  header := by
    refine ⟨_, setMetadataHeader_eq (List.cons_ne_nil _ _) ?_
      (fun e _ => metadataEntry_eq Curl.standard_documented false e) true _, ?_⟩
    · intro e he
      rw [List.mem_singleton.mp he]
      exact hwritten
    · rw [List.map_singleton, List.intercalate_singleton]
      rfl

theorem listable_paths_agree_iff_single :
    HeaderReturns .plain .standard [bytes "x-emc-listable-meta: farbe=rot"] ([], 0)
        (List.replicate 127 zeroedMetadata) [⟨bytes "farbe", bytes "rot"⟩] ∧
      ListingReturns .standard [metadataElement ⟨bytes "farbe", bytes "rot"⟩]
        [⟨bytes "farbe", bytes "rot"⟩] := by
  have hfits : ∀ e ∈ [(⟨bytes "farbe", bytes "rot"⟩ : AtmosMetadata)], e.FitsFields := by
    intro e he
    cases List.mem_singleton.mp he
    constructor <;> decide
  have hreports := @reportsListable_single ⟨bytes "farbe", bytes "rot"⟩ (by decide)
  refine (listable_paths_agree_iff Curl.standard_documented XmlText.standard_documented hfits
    hreports (listsEntry_metadataElement _) rfl List.length_replicate).mpr ⟨by decide, ?_⟩
  intro e he
  cases List.mem_singleton.mp he
  exact ⟨by decide, by decide, fun _ => by decide⟩

/-- A listable entry with the name of system metadata is returned by a listing
and not by the header. -/
theorem size_is_lost :
    ReportsListable .plain .standard false [⟨bytes "size", bytes "3"⟩]
      [bytes "x-emc-listable-meta: size=3"] ∧
    ListingReturns .standard [metadataElement ⟨bytes "size", bytes "3"⟩]
      [⟨bytes "size", bytes "3"⟩] ∧
    ¬ HeaderReturns .plain .standard [bytes "x-emc-listable-meta: size=3"] ([], 0)
      (List.replicate 127 zeroedMetadata) [⟨bytes "size", bytes "3"⟩] := by
  have hfits : ∀ e ∈ [(⟨bytes "size", bytes "3"⟩ : AtmosMetadata)], e.FitsFields := by
    intro e he
    cases List.mem_singleton.mp he
    constructor <;> decide
  refine ⟨@reportsListable_single ⟨bytes "size", bytes "3"⟩ (by decide),
    listing_returns XmlText.standard_documented hfits (listsEntry_metadataElement _), ?_⟩
  rintro ⟨metadata, array, hparse, hshows⟩
  have hcount : (parseUserMetaHeaders .plain .standard [bytes "x-emc-listable-meta: size=3"] ([], 0)
      (List.replicate 127 zeroedMetadata, 0)).map (fun arrays => arrays.2.2) = some 0 := by
    decide +kernel
  rw [hparse] at hcount
  exact absurd (hshows.count.symm.trans (Option.some.inj hcount)) (by decide)

end Atmos
