import Atmos.ObjectListing

/-!
# System metadata in a listing

A server reports the system metadata of an object in the header `x-emc-meta` or,
in a listing, as a `SystemMetadataList` element.  One reader takes a text apart
at commas and equals signs, the other walks over a tree.

* `parseSystemMeta_eq` — the second reader sends the entries of its elements
  through the same chain of comparisons;
* `headerEntries_joinedEntries` — the entries of a header that was made from a
  list;
* `listing_agrees_with_header` — so both readers fill the record alike.
-/

namespace Atmos

open ByteText FixedMemory XmlTree AtmosUtil

/-! ## The reader of a listing -/

namespace AtmosObjectMetadata

variable (time : TimeLibrary) (curl : Curl) (xml : XmlText)

/-- One entry goes through the chain, without `utf8`, and so without the handle
`curl`; no result where a text fills its buffer and has no terminator. -/
def setParsedSystem (self : AtmosObjectMetadata) (parsed : ParsedMeta) :
    Option AtmosObjectMetadata :=
  if parsed.name.length < atmosMetaNameMax ∧ parsed.value.length < atmosMetaValueMax then
    (setSystemMetaEntry time curl false self.systemMetadata parsed.name parsed.value).map
      fun system => { self with systemMetadata := system }
  else none

/-- One round of the loop of `AtmosObjectMetadata_parse_system_meta`. -/
def parseSystemMetaChild (self : AtmosObjectMetadata) (child : Node) :
    Option AtmosObjectMetadata :=
  child.onElement (some self) fun name children =>
    if name = dirNodeMetadata then
      setParsedSystem time curl self (AtmosUtil.parseMeta xml children .zero)
    else some self

/-- `AtmosObjectMetadata_parse_system_meta`, given the children of the
element. -/
def parseSystemMeta (self : AtmosObjectMetadata) (children : List Node) :
    Option AtmosObjectMetadata :=
  children.foldlM (parseSystemMetaChild time curl xml) self

theorem parseSystemMetaChild_eq (self : AtmosObjectMetadata) (child : Node) :
    parseSystemMetaChild time curl xml self child =
      (usermetaItem xml child).elim (some self) (setParsedSystem time curl self) := by
  cases child with
  | element name children =>
      by_cases hname : name = dirNodeMetadata
      · simp [parseSystemMetaChild, usermetaItem, Node.onElement, hname]
      · simp [parseSystemMetaChild, usermetaItem, Node.onElement, hname]
  | _ => rfl

/-! ## The elements of a list -/

variable {xml}

/-- An element with a name and a text, in whatever nodes the text is. -/
def IsField (name text : CStr) (node : Node) : Prop :=
  ∃ inner, node = .element name inner ∧ Node.contents inner = text

/-- A `Metadata` element with the name and the value of an entry, in either
order and with other nodes between them. -/
def ListsSystemEntry (node : Node) (entry : CStr × CStr) : Prop :=
  ∃ children first second, node = .element dirNodeMetadata children ∧
    elements children = [first, second] ∧
    ((IsField dirNodeName entry.1 first ∧ IsField dirNodeValue entry.2 second) ∨
      (IsField dirNodeValue entry.2 first ∧ IsField dirNodeName entry.1 second))

/-- An entry has room in the buffers of a listing, with its terminators. -/
def ListedFits (entry : CStr × CStr) : Prop :=
  entry.1.length < atmosMetaNameMax ∧ entry.2.length < atmosMetaValueMax

theorem parseMetaChild_name (hxml : xml.Documented) {name : CStr} {node : Node}
    (h : IsField dirNodeName name node) (parsed : ParsedMeta) :
    AtmosUtil.parseMetaChild xml parsed node =
      { parsed with name := name.take atmosMetaNameMax } := by
  obtain ⟨inner, rfl, rfl⟩ := h
  rw [AtmosUtil.parseMetaChild, Node.onElement, if_pos rfl, hxml.content, Option.elim_some,
    Node.content]

theorem parseMetaChild_value (hxml : xml.Documented) {value : CStr} {node : Node}
    (h : IsField dirNodeValue value node) (parsed : ParsedMeta) :
    AtmosUtil.parseMetaChild xml parsed node =
      { parsed with value := value.take atmosMetaValueMax } := by
  have hname : dirNodeValue ≠ dirNodeName := by decide
  obtain ⟨inner, rfl, rfl⟩ := h
  rw [AtmosUtil.parseMetaChild, Node.onElement, if_neg hname, if_pos rfl, hxml.content,
    Option.elim_some, Node.content]

/-- Such an element is read as its entry. -/
theorem usermetaItem_of_listsSystemEntry (hxml : xml.Documented) {node : Node}
    {entry : CStr × CStr} (hfits : ListedFits entry) (h : ListsSystemEntry node entry) :
    usermetaItem xml node = some ⟨entry.1, entry.2, false⟩ := by
  obtain ⟨children, first, second, rfl, hchildren, horder⟩ := h
  have hname : entry.1.take atmosMetaNameMax = entry.1 := List.take_of_length_le hfits.1.le
  have hvalue : entry.2.take atmosMetaValueMax = entry.2 := List.take_of_length_le hfits.2.le
  have hskip : ∀ parsed child, child.isElement = false →
      AtmosUtil.parseMetaChild xml parsed child = parsed := fun _ _ helement =>
    Node.onElement_of_not helement _ _
  have hparsed : AtmosUtil.parseMeta xml children .zero = ⟨entry.1, entry.2, false⟩ := by
    rw [AtmosUtil.parseMeta, foldl_elements hskip, hchildren, List.foldl_cons, List.foldl_cons,
      List.foldl_nil]
    rcases horder with ⟨hfirst, hsecond⟩ | ⟨hfirst, hsecond⟩
    · rw [parseMetaChild_name hxml hfirst, parseMetaChild_value hxml hsecond, hname, hvalue]
      rfl
    · rw [parseMetaChild_value hxml hfirst, parseMetaChild_name hxml hsecond, hname, hvalue]
      rfl
  rw [usermetaItem, Node.onElement, if_pos rfl, hparsed]

/-- The entries of a list, element by element. -/
theorem filterMap_listsSystemEntry (hxml : xml.Documented) {children : List Node}
    {entries : List (CStr × CStr)} (hfits : ∀ entry ∈ entries, ListedFits entry)
    (h : List.Forall₂ ListsSystemEntry (elements children) entries) :
    children.filterMap (usermetaItem xml) =
      entries.map fun entry => ⟨entry.1, entry.2, false⟩ := by
  rw [filterMap_usermetaItem_elements]
  generalize elements children = nodes at h
  induction h with
  | nil => rfl
  | @cons node entry nodes entries hentry _ ih =>
      have hitem := usermetaItem_of_listsSystemEntry hxml (hfits entry (List.mem_cons_self ..))
        hentry
      rw [List.filterMap_cons_some hitem, List.map_cons,
        ih fun e he => hfits e (List.mem_cons_of_mem _ he)]

/-- Entries that fit go through the chain one after the other. -/
theorem foldlM_setParsedSystem {entries : List (CStr × CStr)}
    (hfits : ∀ entry ∈ entries, ListedFits entry) (self : AtmosObjectMetadata) :
    (entries.map fun entry => (⟨entry.1, entry.2, false⟩ : ParsedMeta)).foldlM
        (setParsedSystem time curl) self =
      (entries.foldlM (setSystemEntry time curl false) self.systemMetadata).map
        fun system => { self with systemMetadata := system } := by
  induction entries generalizing self with
  | nil => rfl
  | cons entry entries ih =>
      have hstep : setParsedSystem time curl self ⟨entry.1, entry.2, false⟩ =
          (setSystemEntry time curl false self.systemMetadata entry).map
            fun system => { self with systemMetadata := system } :=
        if_pos (hfits entry (List.mem_cons_self ..))
      rw [List.map_cons, List.foldlM_cons, List.foldlM_cons, hstep]
      cases setSystemEntry time curl false self.systemMetadata entry with
      | none => rfl
      | some system =>
          have hrest := ih (fun e he => hfits e (List.mem_cons_of_mem _ he))
            { self with systemMetadata := system }
          exact hrest

/-- **The reader of a listing** sends the entries of its elements through the
chain. -/
theorem parseSystemMeta_eq (hxml : xml.Documented) {children : List Node}
    {entries : List (CStr × CStr)} (hfits : ∀ entry ∈ entries, ListedFits entry)
    (h : List.Forall₂ ListsSystemEntry (elements children) entries)
    (self : AtmosObjectMetadata) :
    parseSystemMeta time curl xml self children =
      (entries.foldlM (setSystemEntry time curl false) self.systemMetadata).map
        fun system => { self with systemMetadata := system } := by
  rw [parseSystemMeta, foldlM_items (parseSystemMetaChild_eq time curl xml),
    filterMap_listsSystemEntry hxml hfits h]
  exact foldlM_setParsedSystem time curl hfits self

end AtmosObjectMetadata

/-! ## The header of the same entries -/

/-- An entry that a header can carry. -/
structure HeaderEntry (entry : CStr × CStr) : Prop where
  name_comma : comma ∉ entry.1
  name_equals : equals ∉ entry.1
  name_head : entry.1.head? ≠ some space
  value_comma : comma ∉ entry.2
  value_head : entry.2.head? ≠ some space

/-- A piece of a header: an entry behind some spaces. -/
def spacedPiece (piece : Nat × CStr × CStr) : CStr :=
  List.replicate piece.1 space ++ (piece.2.1 ++ equals :: piece.2.2)

/-- The header value for some entries, each behind a number of spaces. -/
def joinedEntries (pieces : List (Nat × CStr × CStr)) : CStr :=
  [comma].intercalate (pieces.map spacedPiece)

/-- Spaces in front of a piece are skipped. -/
theorem headerEntry_replicate (n : Nat) (field : CStr) :
    entryName (List.replicate n space ++ field) = entryName field ∧
      entryValue (List.replicate n space ++ field) = entryValue field := by
  induction n with
  | zero => exact ⟨rfl, rfl⟩
  | succ n ih =>
      rw [List.replicate_succ, List.cons_append, entryName_space, entryValue_space]
      exact ih

theorem headerEntry_spacedPiece {piece : Nat × CStr × CStr} (h : HeaderEntry piece.2) :
    (entryName (spacedPiece piece), entryValue (spacedPiece piece)) = piece.2 := by
  obtain ⟨n, name, value⟩ := piece
  obtain ⟨hname, hvalue⟩ := headerEntry_replicate n (name ++ equals :: value)
  have hentry := entryName_append h.name_equals h.name_head value
  have hentry' := entryValue_append h.name_equals h.value_head
  rw [spacedPiece, hname, hvalue, hentry, hentry']

theorem comma_spacedPiece {piece : Nat × CStr × CStr} (h : HeaderEntry piece.2) :
    comma ∉ spacedPiece piece := by
  have hspace : comma ≠ space := by decide
  have hequals : comma ≠ equals := by decide
  unfold spacedPiece
  simp [h.name_comma, h.value_comma, hspace, hequals]

/-- **The entries of a header** that was made from a list. -/
theorem headerEntries_joinedEntries {pieces : List (Nat × CStr × CStr)} (hne : pieces ≠ [])
    (h : ∀ piece ∈ pieces, HeaderEntry piece.2) :
    (joinedEntries pieces).splitOn comma = pieces.map spacedPiece ∧
      headerEntries (joinedEntries pieces) = pieces.map Prod.snd := by
  have hcommas : ∀ field ∈ pieces.map spacedPiece, comma ∉ field := by
    intro field hfield
    obtain ⟨piece, hpiece, rfl⟩ := List.mem_map.mp hfield
    exact comma_spacedPiece (h piece hpiece)
  have hsplit : (joinedEntries pieces).splitOn comma = pieces.map spacedPiece :=
    List.splitOn_intercalate comma hcommas (by simpa using hne)
  refine ⟨hsplit, ?_⟩
  rw [headerEntries, hsplit, List.map_map]
  apply List.map_congr_left
  intro piece hpiece
  exact headerEntry_spacedPiece (h piece hpiece)

/-- **Listing and header agree.**  The same entries, written as a header value
without `x-emc-utf8` or as the elements of a listing, leave the same record. -/
theorem listing_agrees_with_header (time : TimeLibrary) (rest : RestClient) (curl : Curl)
    {xml : XmlText} (hxml : xml.Documented) {headers : List CStr} {children : List Node}
    {pieces : List (Nat × CStr × CStr)}
    (hvalue : rest.getHeaderValue headers atmosHeaderMeta = some (joinedEntries pieces))
    (hplain : isUtf8 rest headers = false) (hshape : ∀ piece ∈ pieces, HeaderEntry piece.2)
    (hnodes : List.Forall₂ AtmosObjectMetadata.ListsSystemEntry (elements children)
      (pieces.map Prod.snd))
    (hfits : AllFields MetaFieldFits (pieces.map spacedPiece))
    (hlisted : ∀ piece ∈ pieces, AtmosObjectMetadata.ListedFits piece.2)
    (htimes : ∀ piece ∈ pieces, TimeFits piece.2) (self : AtmosObjectMetadata) :
    ∃ system, parseSystemMetaHeader time rest curl headers self.systemMetadata = some system ∧
      AtmosObjectMetadata.parseSystemMeta time curl xml self children =
        some { self with systemMetadata := system } := by
  have hentries : ∀ entry ∈ pieces.map Prod.snd, AtmosObjectMetadata.ListedFits entry := by
    intro entry hentry
    obtain ⟨piece, hpiece, rfl⟩ := List.mem_map.mp hentry
    exact hlisted piece hpiece
  have hsome : ((pieces.map Prod.snd).foldlM (setSystemEntry time curl false)
      self.systemMetadata).isSome := by
    apply LastWrite.foldlM_isSome
    intro entry hentry
    obtain ⟨piece, hpiece, rfl⟩ := List.mem_map.mp hentry
    exact setSystemEntry_isSome (htimes piece hpiece)
  obtain ⟨system, hsystem⟩ := Option.isSome_iff_exists.mp hsome
  refine ⟨system, ?_, ?_⟩
  · by_cases hne : pieces = []
    · -- an empty value has one entry, without a name
      subst hne
      have hempty : AllFields MetaFieldFits ((joinedEntries []).splitOn comma) := by decide
      rw [parseSystemMetaHeader_eq time rest curl hvalue hempty]
      exact hsystem
    · obtain ⟨hsplit, hheader⟩ := headerEntries_joinedEntries hne hshape
      rw [← hsplit] at hfits
      rw [parseSystemMetaHeader_eq time rest curl hvalue hfits, hheader, hplain]
      exact hsystem
  · rw [AtmosObjectMetadata.parseSystemMeta_eq time curl hxml hentries hnodes, hsystem]
    rfl

/-- Two entries of a listing, with white space around the elements. -/
def listedNodes : List Node :=
  [.text (bytes " "),
    .element dirNodeMetadata [.textElement dirNodeValue (bytes "3"), .text (bytes " "),
      .textElement dirNodeName (bytes "size")],
    .other,
    .element dirNodeMetadata [.textElement dirNodeName (bytes "type"),
      .textElement dirNodeValue (bytes "regular")]]

theorem listing_agrees_with_header_size :
    ∃ system, parseSystemMetaHeader .greenwich .plain .standard
        [bytes "x-emc-meta: size=3,  type=regular"] zeroedSystemMetadata = some system ∧
      AtmosObjectMetadata.parseSystemMeta .greenwich .standard .standard .zero listedNodes =
        some { AtmosObjectMetadata.zero with systemMetadata := system } := by
  have hfirst : AtmosObjectMetadata.ListsSystemEntry (.element dirNodeMetadata
      [.textElement dirNodeValue (bytes "3"), .text (bytes " "),
        .textElement dirNodeName (bytes "size")]) (bytes "size", bytes "3") :=
    ⟨_, _, _, rfl, rfl, Or.inr ⟨⟨_, rfl, rfl⟩, _, rfl, rfl⟩⟩
  have hsecond : AtmosObjectMetadata.ListsSystemEntry (.element dirNodeMetadata
      [.textElement dirNodeName (bytes "type"), .textElement dirNodeValue (bytes "regular")])
      (bytes "type", bytes "regular") :=
    ⟨_, _, _, rfl, rfl, Or.inl ⟨⟨_, rfl, rfl⟩, _, rfl, rfl⟩⟩
  have hshape : ∀ piece ∈ [(0, bytes "size", bytes "3"), (2, bytes "type", bytes "regular")],
      HeaderEntry piece.2 := by
    intro piece hpiece
    rcases List.mem_pair.mp hpiece with rfl | rfl <;> constructor <;> decide
  exact @listing_agrees_with_header .greenwich .plain .standard .standard
    XmlText.standard_documented [bytes "x-emc-meta: size=3,  type=regular"] listedNodes
    [(0, bytes "size", bytes "3"), (2, bytes "type", bytes "regular")] (by decide +kernel)
    (by decide +kernel) hshape (.cons hfirst (.cons hsecond .nil)) (by decide +kernel)
    (by unfold AtmosObjectMetadata.ListedFits; decide +kernel) (by decide +kernel) .zero

end Atmos
