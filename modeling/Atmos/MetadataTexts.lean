import Atmos.ResponseFilters

/-!
# Texts of listed metadata

The entries of a listing have lists of metadata.  The parsers copy the texts of
each `Metadata` element to two buffers, and from there to an array, by `strncpy`
with the size of the field each time.  This leaves strings only if the texts are
shorter than the fields.

* `parseMeta_eq` — the buffers get the part that fits of the last `Name` and of
  the last `Value`;
* `storeParsed_holds_iff` — when a slot of an array holds these as strings;
* `userArray_foldlM` — what the arrays of an entry have after all its lists.
-/

namespace Atmos

open ByteText FixedMemory XmlTree AtmosUtil LastWrite

/-! ## Fields -/

/-- A field holds the part that fits of a text, or the empty string without
one. -/
def HoldsValue {n : Nat} (field : Block n) (value : Option CStr) : Prop :=
  field.Holds (value.getD [])

/-- A text is shorter than a field of `n` bytes, if there is a text. -/
def ValueFits (n : Nat) (value : Option CStr) : Prop :=
  ∀ text, value = some text → text.length < n

/-- A zeroed field that a text may be copied to. -/
theorem copyValue_holds_iff {n : Nat} (hn : 0 < n) {value : Option CStr}
    (hnul : ∀ text, value = some text → 0 ∉ text) :
    HoldsValue (copyValue value (.zero n)) value ↔ ValueFits n value := by
  cases value with
  | none => simp [HoldsValue, copyValue, ValueFits, Block.zero_holds hn]
  | some text =>
      have hiff := @Block.strncpy_holds_iff n text (hnul text rfl)
      simpa [HoldsValue, copyValue, ValueFits] using hiff

/-- The text of a selected node has no terminator inside. -/
theorem nul_selectSingleNodeValue {xml : LibxmlReader} (hxml : xml.Documented)
    {doc : xml.Document} {selector : CStr} {useCosNs : Bool} :
    ∀ text, selectSingleNodeValue xml doc selector useCosNs = some text → 0 ∉ text := by
  intro text h
  unfold selectSingleNodeValue at h
  dsimp only at h
  split at h
  · obtain ⟨node, -, hnode⟩ := Option.bind_eq_some_iff.mp h
    exact hxml.content_nul node text hnode
  · cases h

/-! ## Children -/

section Children

variable (xml : XmlText)

/-- The text of a child, if it is an element with this name. -/
def childText (name : CStr) (child : Node) : Option CStr :=
  child.onElement none fun name' _ => if name' = name then xml.nodeGetContent child else none

/-- The text of the last child with a name. -/
def lastText (name : CStr) (children : List Node) : Option CStr :=
  (children.filterMap (childText xml name)).getLast?

theorem childText_element (name name' : CStr) (children : List Node) :
    childText xml name (.element name' children) =
      if name' = name then xml.nodeGetContent (.element name' children) else none := rfl

variable {xml} (hnul : ∀ node text, xml.nodeGetContent node = some text → 0 ∉ text)

include hnul

theorem nul_lastText {name : CStr} {children : List Node} :
    ∀ text, lastText xml name children = some text → 0 ∉ text := by
  intro text h
  obtain ⟨child, -, hchild⟩ := List.mem_filterMap.mp (List.mem_of_getLast? h)
  cases child with
  | element name' children =>
      rw [childText_element] at hchild
      split at hchild
      · exact hnul _ text hchild
      · cases hchild
  | _ => cases hchild

end Children

/-! ## One `Metadata` element -/

section Metadata

variable (xml : XmlText)

/-- The texts of a `Metadata` element, as long as the server has made them. -/
structure ListedText where
  name : CStr
  value : CStr
  listable : Bool

/-- What the buffers get of them. -/
def ListedText.parsed (texts : ListedText) : ParsedMeta where
  name := texts.name.take atmosMetaNameMax
  value := texts.value.take atmosMetaValueMax
  listable := texts.listable

/-- The texts, given the children of the element. -/
def listedText (children : List Node) : ListedText where
  name := (lastText xml dirNodeName children).getD []
  value := (lastText xml dirNodeValue children).getD []
  listable := (lastText xml dirNodeListable children).elim false fun text => text = bytes "true"

/-- One round stores at most one text. -/
theorem parseMetaChild_eq (parsed : ParsedMeta) (child : Node) :
    AtmosUtil.parseMetaChild xml parsed child =
      { name := (childText xml dirNodeName child).elim parsed.name (·.take atmosMetaNameMax)
        value := (childText xml dirNodeValue child).elim parsed.value (·.take atmosMetaValueMax)
        listable := (childText xml dirNodeListable child).elim parsed.listable
          fun text => text = bytes "true" } := by
  cases child with
  | element name children =>
      have hnames : dirNodeName ≠ dirNodeValue ∧ dirNodeName ≠ dirNodeListable ∧
          dirNodeValue ≠ dirNodeListable := by decide
      simp only [childText_element, AtmosUtil.parseMetaChild, Node.onElement]
      by_cases hname : name = dirNodeName
      · cases xml.nodeGetContent (.element name children) <;> simp [hname, hnames]
      · by_cases hvalue : name = dirNodeValue
        · cases xml.nodeGetContent (.element name children) <;>
            simp [hvalue, hnames, Ne.symm hnames.1]
        · by_cases hlistable : name = dirNodeListable
          · cases xml.nodeGetContent (.element name children) <;>
              simp [hlistable, Ne.symm hnames.2.1, Ne.symm hnames.2.2]
          · simp [hname, hvalue, hlistable]
  | _ => rfl

/-- **The buffers after `AtmosUtil_parse_meta`.** -/
theorem parseMeta_eq (children : List Node) :
    AtmosUtil.parseMeta xml children .zero = (listedText xml children).parsed := by
  have hlast : ∀ {α : Type} (view : ParsedMeta → α) (name : CStr) (g : CStr → α),
      (∀ parsed child, view (AtmosUtil.parseMetaChild xml parsed child) =
        (childText xml name child).elim (view parsed) g) →
      view (AtmosUtil.parseMeta xml children .zero) =
        (lastText xml name children).elim (view .zero) g := by
    intro α view name g hview
    rw [AtmosUtil.parseMeta, lastText, ← last_map]
    apply view_foldl
    intro parsed child
    rw [hview]
    cases childText xml name child <;> rfl
  have hname := hlast ParsedMeta.name dirNodeName _ fun _ _ => by rw [parseMetaChild_eq]
  have hvalue := hlast ParsedMeta.value dirNodeValue _ fun _ _ => by rw [parseMetaChild_eq]
  have hlistable := hlast ParsedMeta.listable dirNodeListable _ fun _ _ => by
    rw [parseMetaChild_eq]
  generalize AtmosUtil.parseMeta xml children .zero = parsed at hname hvalue hlistable
  obtain ⟨name, value, listable⟩ := parsed
  dsimp only at hname hvalue hlistable
  rw [ListedText.parsed, listedText, hname, hvalue, hlistable]
  congr 1
  · cases lastText xml dirNodeName children <;> rfl
  · cases lastText xml dirNodeValue children <;> rfl

variable {xml}

/-- Name and value are shorter than their fields. -/
structure ListedText.Fits (texts : ListedText) : Prop where
  name : texts.name.length < atmosMetaNameMax
  value : texts.value.length < atmosMetaValueMax

/-- A slot holds the parts that fit of a name and a value, each in its field. -/
structure SlotHolds (slot : MetadataSlot) (texts : ListedText) : Prop where
  name : readCStr slot.nameField = some (texts.name.take (atmosMetaNameMax - 1))
  value : readCStr slot.valueField = some (texts.value.take (atmosMetaValueMax - 1))

/-- Texts without terminators inside. -/
structure ListedText.NulFree (texts : ListedText) : Prop where
  name : 0 ∉ texts.name
  value : 0 ∉ texts.value

theorem nulFree_listedText (hnul : ∀ node text, xml.nodeGetContent node = some text → 0 ∉ text)
    (children : List Node) : (listedText xml children).NulFree := by
  have hgetD : ∀ name, 0 ∉ (lastText xml name children).getD [] := by
    intro name
    cases htext : lastText xml name children with
    | none => exact List.not_mem_nil
    | some text => exact nul_lastText hnul text htext
  exact ⟨hgetD dirNodeName, hgetD dirNodeValue⟩

/-- A slot holds the texts stored in it if both fit. -/
theorem storeParsed_holds_iff {texts : ListedText} (hnul : texts.NulFree) (slot : MetadataSlot) :
    SlotHolds (AtmosObjectMetadata.storeParsed texts.parsed slot) texts ↔ texts.Fits := by
  obtain ⟨slot', hset, hname, hvalue⟩ :=
    setEntry_eq (texts.name.take atmosMetaNameMax) (texts.value.take atmosMetaValueMax) slot
  have hstore : AtmosObjectMetadata.storeParsed texts.parsed slot = slot' := by
    rw [AtmosObjectMetadata.storeParsed, ListedText.parsed, hset, Option.getD_some]
  rw [strncpy_take] at hname hvalue
  have hnameIff : readCStr slot'.nameField = some (texts.name.take (atmosMetaNameMax - 1)) ↔
      texts.name.length < atmosMetaNameMax := by
    rw [hname]
    exact Block.strncpy_holds_iff hnul.name
  have hvalueIff : readCStr slot'.valueField = some (texts.value.take (atmosMetaValueMax - 1)) ↔
      texts.value.length < atmosMetaValueMax := by
    rw [hvalue]
    exact Block.strncpy_holds_iff hnul.value
  rw [hstore]
  exact ⟨fun h => ⟨hnameIff.mp h.name, hvalueIff.mp h.value⟩,
    fun h => ⟨hnameIff.mpr h.name, hvalueIff.mpr h.value⟩⟩

end Metadata

/-! ## The lists of an entry -/

section Lists

variable (time : TimeLibrary) (curl : Curl) (xml : XmlText)

/-- The texts of the `Metadata` elements among some nodes. -/
def listedTexts (children : List Node) : List ListedText :=
  children.filterMap fun child => child.onElement none fun name children =>
    if name = dirNodeMetadata then some (listedText xml children) else none

/-- These are what the loops over a list see. -/
theorem filterMap_usermetaItem_eq (children : List Node) :
    children.filterMap (AtmosObjectMetadata.usermetaItem xml) =
      (listedTexts xml children).map ListedText.parsed := by
  rw [listedTexts, List.map_filterMap]
  congr 1
  funext child
  cases child with
  | element name children =>
      rw [AtmosObjectMetadata.usermetaItem, Node.onElement, Node.onElement, parseMeta_eq]
      split <;> rfl
  | _ => rfl

/-- What the filters do with a child that is a list of metadata. -/
def listStep (parent : AtmosObjectMetadata) (child : Node) : Option AtmosObjectMetadata :=
  child.onElement (some parent) fun name children =>
    if name = dirNodeSystemMetadataList then parent.parseSystemMeta time curl xml children
    else if name = dirNodeUserMetadataList then parent.parseUsermeta xml children
    else some parent

/-- The texts of a child that is a list of system metadata. -/
def systemTexts (child : Node) : List ListedText :=
  child.onElement [] fun name children =>
    if name = dirNodeSystemMetadataList then listedTexts xml children else []

/-- An entry of system metadata that is stored. -/
def ListedText.SystemFits (texts : ListedText) : Prop :=
  texts.Fits ∧ TimeFits (texts.name, texts.value)

/-- One entry of system metadata. -/
theorem setParsedSystem_isSome_iff (self : AtmosObjectMetadata) (texts : ListedText) :
    (AtmosObjectMetadata.setParsedSystem time curl self texts.parsed).isSome ↔
      texts.SystemFits := by
  have hname : texts.parsed.name.length = min atmosMetaNameMax texts.name.length :=
    List.length_take
  have hvalue : texts.parsed.value.length = min atmosMetaValueMax texts.value.length :=
    List.length_take
  rw [AtmosObjectMetadata.setParsedSystem, hname, hvalue]
  split
  · rename_i hfits
    have htexts : texts.Fits := ⟨by omega, by omega⟩
    have hparsed : texts.parsed.name = texts.name ∧ texts.parsed.value = texts.value :=
      ⟨List.take_of_length_le htexts.name.le, List.take_of_length_le htexts.value.le⟩
    rw [Option.isSome_map, hparsed.1, hparsed.2]
    have hentry : (setSystemMetaEntry time curl false self.systemMetadata texts.name
        texts.value).isSome ↔ TimeFits (texts.name, texts.value) :=
      setSystemEntry_isSome_iff (texts.name, texts.value) self.systemMetadata
    rw [hentry]
    exact ⟨fun htime => ⟨htexts, htime⟩, fun h => h.2⟩
  · rename_i hfits
    simp only [Option.isSome_none, Bool.false_eq_true, false_iff]
    intro h
    obtain ⟨hnameFits, hvalueFits⟩ := h.1
    exact hfits ⟨by omega, by omega⟩

/-- **A list of system metadata** is read if all its entries are stored. -/
theorem parseSystemMeta_isSome_iff (self : AtmosObjectMetadata) (children : List Node) :
    (self.parseSystemMeta time curl xml children).isSome ↔
      ∀ texts ∈ listedTexts xml children, texts.SystemFits := by
  rw [AtmosObjectMetadata.parseSystemMeta,
    foldlM_items (AtmosObjectMetadata.parseSystemMetaChild_eq time curl xml),
    filterMap_usermetaItem_eq, List.foldlM_map]
  exact foldlM_isSome_iff (fun self texts => setParsedSystem_isSome_iff time curl self texts) _ self

/-- A child is read unless it is a list of system metadata that is not. -/
theorem listStep_isSome_iff (parent : AtmosObjectMetadata) (child : Node) :
    (listStep time curl xml parent child).isSome ↔
      ∀ texts ∈ systemTexts xml child, texts.SystemFits := by
  cases child with
  | element name children =>
      rw [listStep, systemTexts, Node.onElement, Node.onElement]
      split
      · exact parseSystemMeta_isSome_iff time curl xml parent children
      · split
        · simp [AtmosObjectMetadata.parseUsermeta_eq]
        · simp
  | _ => simp [listStep, systemTexts, Node.onElement]

/-- The array of one kind of metadata. -/
def userArray (listable : Bool) (self : AtmosObjectMetadata) : MetadataArray :=
  if listable then self.listableMeta else self.metadata

/-- The texts of this kind in a child that is a list of user metadata, if it has
any. -/
def userTexts (listable : Bool) (child : Node) : Option (List ListedText) :=
  child.onElement none fun name children =>
    if name = dirNodeUserMetadataList then
      let texts := (listedTexts xml children).filter (·.listable == listable)
      if texts = [] then none else some texts
    else none

/-- An array that was made for some texts. -/
def arrayOf (texts : List ListedText) : MetadataArray :=
  (texts.map fun texts => AtmosObjectMetadata.storeParsed texts.parsed zeroedMetadata,
    texts.length)

/-- System metadata does not go to the arrays. -/
theorem userArray_parseSystemMeta {self self' : AtmosObjectMetadata} {children : List Node}
    (h : self.parseSystemMeta time curl xml children = some self') (listable : Bool) :
    userArray listable self' = userArray listable self := by
  rw [AtmosObjectMetadata.parseSystemMeta,
    foldlM_items (AtmosObjectMetadata.parseSystemMetaChild_eq time curl xml)] at h
  have hlast := @view_foldlM _ _ _ _ (userArray listable) (fun _ => none) ?_ _ _ _ h
  · rw [hlast, last, List.filterMap_none]
    rfl
  · intro st st' parsed hstep
    rw [AtmosObjectMetadata.setParsedSystem] at hstep
    split at hstep
    · obtain ⟨system, -, rfl⟩ := Option.map_eq_some_iff.mp hstep
      rfl
    · cases hstep

theorem filledArray_parsed (texts : List ListedText) (array : MetadataArray) :
    AtmosObjectMetadata.filledArray (texts.map ListedText.parsed) array =
      ((if texts = [] then none else some texts).map arrayOf).getD array := by
  by_cases hnil : texts = []
  · subst hnil
    rfl
  · have hmap : texts.map ListedText.parsed ≠ [] := by simpa using hnil
    rw [AtmosObjectMetadata.filledArray, if_neg hmap, if_neg hnil, Option.map_some,
      Option.getD_some, arrayOf, List.map_map, List.length_map]
    rfl

/-- User metadata replaces the array of each kind it has. -/
theorem userArray_parseUsermeta {self self' : AtmosObjectMetadata} {children : List Node}
    (h : self.parseUsermeta xml children = some self') (listable : Bool) :
    userArray listable self' =
      AtmosObjectMetadata.filledArray
        (((listedTexts xml children).filter (·.listable == listable)).map ListedText.parsed)
        (userArray listable self) := by
  rw [AtmosObjectMetadata.parseUsermeta_eq, filterMap_usermetaItem_eq] at h
  obtain rfl := Option.some.inj h
  cases listable with
  | true =>
      have hfilter : (fun parsed : ParsedMeta => parsed.listable) ∘ ListedText.parsed =
          fun texts => texts.listable == true := by
        funext texts
        exact (beq_true _).symm
      rw [← hfilter, ← List.filter_map]
      rfl
  | false =>
      have hfilter : (fun parsed : ParsedMeta => !parsed.listable) ∘ ListedText.parsed =
          fun texts => texts.listable == false := by
        funext texts
        exact (beq_false _).symm
      rw [← hfilter, ← List.filter_map]
      rfl

/-- So does a child that is a list of it. -/
theorem userArray_listStep {parent parent' : AtmosObjectMetadata} {child : Node}
    (h : listStep time curl xml parent child = some parent') (listable : Bool) :
    userArray listable parent' =
      ((userTexts xml listable child).map arrayOf).getD (userArray listable parent) := by
  cases child with
  | element name children =>
      rw [listStep, Node.onElement] at h
      rw [userTexts, Node.onElement]
      by_cases hsystem : name = dirNodeSystemMetadataList
      · have huser : ¬ name = dirNodeUserMetadataList := by
          rw [hsystem]
          decide
        rw [if_pos hsystem] at h
        rw [if_neg huser, userArray_parseSystemMeta time curl xml h]
        rfl
      · rw [if_neg hsystem] at h
        by_cases huser : name = dirNodeUserMetadataList
        · rw [if_pos huser] at h
          rw [if_pos huser, ← filledArray_parsed, userArray_parseUsermeta xml h]
        · rw [if_neg huser] at h
          rw [if_neg huser, Option.some.inj h]
          rfl
  | _ =>
      obtain rfl := Option.some.inj h
      rfl

/-! ### All lists -/

/-- The texts an array is made for: those of the last list that has any. -/
def storedTexts (listable : Bool) (children : List Node) : List ListedText :=
  (children.filterMap (userTexts xml listable)).getLast?.getD []

/-- An array holds some texts: as many as it counts, each in its slot. -/
def ArrayHolds (array : MetadataArray) (texts : List ListedText) : Prop :=
  array.2 = texts.length ∧ List.Forall₂ SlotHolds array.1 texts

theorem arrayOf_holds_iff {texts : List ListedText} (hnul : ∀ t ∈ texts, t.NulFree) :
    ArrayHolds (arrayOf texts) texts ↔ ∀ t ∈ texts, t.Fits := by
  have hslots : List.Forall₂ SlotHolds (arrayOf texts).1 texts ↔ ∀ t ∈ texts, t.Fits := by
    rw [arrayOf, List.forall₂_map_left_iff, List.forall₂_same]
    exact forall₂_congr fun t ht => storeParsed_holds_iff (hnul t ht) zeroedMetadata
  rw [ArrayHolds, hslots]
  exact and_iff_right rfl

variable {xml}

theorem nulFree_listedTexts (hnul : ∀ node text, xml.nodeGetContent node = some text → 0 ∉ text)
    {children : List Node} : ∀ t ∈ listedTexts xml children, t.NulFree := by
  intro t ht
  obtain ⟨child, -, hchild⟩ := List.mem_filterMap.mp ht
  cases child with
  | element name children' =>
      rw [Node.onElement] at hchild
      split at hchild
      · obtain rfl := Option.some.inj hchild
        exact nulFree_listedText hnul children'
      · cases hchild
  | _ => cases hchild

theorem nulFree_storedTexts (hnul : ∀ node text, xml.nodeGetContent node = some text → 0 ∉ text)
    {listable : Bool} {children : List Node} :
    ∀ t ∈ storedTexts xml listable children, t.NulFree := by
  intro t ht
  rw [storedTexts] at ht
  cases hlast : (children.filterMap (userTexts xml listable)).getLast? with
  | none =>
      rw [hlast] at ht
      exact absurd ht List.not_mem_nil
  | some texts =>
      rw [hlast, Option.getD_some] at ht
      obtain ⟨child, -, hchild⟩ := List.mem_filterMap.mp (List.mem_of_getLast? hlast)
      cases child with
      | element name children' =>
          rw [userTexts, Node.onElement] at hchild
          dsimp only at hchild
          split at hchild
          · split at hchild
            · cases hchild
            · obtain rfl := Option.some.inj hchild
              exact nulFree_listedTexts hnul t (List.mem_of_mem_filter ht)
          · cases hchild
      | _ => cases hchild

/-- Both arrays of an entry hold their texts. -/
def MetadataHeld (xml : XmlText) (parent : AtmosObjectMetadata) (children : List Node) : Prop :=
  ∀ listable, ArrayHolds (userArray listable parent) (storedTexts xml listable children)

/-- Every text of the lists fits. -/
structure MetadataFits (xml : XmlText) (children : List Node) : Prop where
  system : ∀ child ∈ children, ∀ texts ∈ systemTexts xml child, texts.SystemFits
  user : ∀ listable, ∀ texts ∈ storedTexts xml listable children, texts.Fits

/-- **The arrays of an entry** after a loop over its children that does with
their lists what the filters do. -/
theorem userArray_foldlM {ρ : Type} {step : ρ → Node → Option ρ} {view : ρ → AtmosObjectMetadata}
    (hstep : ∀ {entry entry' : ρ} {child : Node}, step entry child = some entry' →
      listStep time curl xml (view entry) child = some (view entry'))
    {children : List Node} {entry entry' : ρ} (h : children.foldlM step entry = some entry')
    (hzero : view entry = .zero) (listable : Bool) :
    userArray listable (view entry') = arrayOf (storedTexts xml listable children) := by
  have hlast := @view_foldlM _ _ _ _ (fun entry => userArray listable (view entry))
    (fun child => (userTexts xml listable child).map arrayOf)
    (fun hnext => userArray_listStep time curl xml (hstep hnext) listable) _ _ _ h
  have hinitial : userArray listable (view entry) = arrayOf [] := by
    rw [hzero]
    cases listable <;> rfl
  rw [hlast, hinitial, last_map, storedTexts]
  cases (children.filterMap (userTexts xml listable)).getLast? <;> rfl

end Lists

end Atmos
