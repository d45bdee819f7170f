import Atmos.MetadataTexts
import Atmos.UnparsedFailures

/-!
# Texts in response fields

Texts of any length come from the server and go to fields of a fixed size, by
`strncpy` with the size of the field, by `strcpy`, or by `strncpy` with the
length of the text.  None of these both terminates the string and stays in the
field for every text.

* `AtmosDirectoryEntry.parseEntry_holds_iff` and the like — when a parser leaves
  the texts of an entry in its fields;
* `texts_held_iff` — for all parsers of bodies and locations: when every text is
  shorter than its field.
-/

namespace Atmos

open ByteText FixedMemory XmlTree AtmosUtil LastWrite

/-! ## Entries of a listing -/

section Entries

variable {time : TimeLibrary} {curl : Curl} {xml : LibxmlReader}

/-- A field that is copied from every child with a name. -/
theorem copied_foldlM {n : Nat} (hn : 0 < n) {ρ : Type} {step : ρ → Node → Option ρ}
    (view : ρ → Block n) {name : CStr}
    (hstep : ∀ {entry entry' : ρ} {child : Node}, step entry child = some entry' →
      view entry' = copyValue (childText xml.toXmlText name child) (view entry))
    (hxml : xml.Documented) {children : List Node} {entry entry' : ρ}
    (h : children.foldlM step entry = some entry') (hzero : view entry = .zero n) :
    HoldsValue (view entry') (lastText xml.toXmlText name children) ↔
      ValueFits n (lastText xml.toXmlText name children) := by
  have hlast := @view_foldlM _ _ _ _ view
    (fun child => (childText xml.toXmlText name child).map Block.strncpy) ?_ _ _ _ h
  · have hcopy : view entry' = copyValue (lastText xml.toXmlText name children) (.zero n) := by
      rw [hlast, hzero, last_map, copyValue, lastText]
    rw [hcopy]
    exact copyValue_holds_iff hn (nul_lastText hxml.content_nul)
  · intro entry entry' child hnext
    rw [hstep hnext, copyValue]
    cases childText xml.toXmlText name child <;> rfl

/-- The arrays of an entry whose lists are parsed child by child. -/
theorem metadataHeld_iff {ρ : Type} {step : ρ → Node → Option ρ} (view : ρ → AtmosObjectMetadata)
    (hstep : ∀ {entry entry' : ρ} {child : Node}, step entry child = some entry' →
      listStep time curl xml.toXmlText (view entry) child = some (view entry'))
    (hxml : xml.Documented) {children : List Node} {entry entry' : ρ}
    (h : children.foldlM step entry = some entry') (hzero : view entry = .zero) :
    MetadataHeld xml.toXmlText (view entry') children ↔
      ∀ listable, ∀ texts ∈ storedTexts xml.toXmlText listable children, texts.Fits := by
  apply forall_congr'
  intro listable
  rw [userArray_foldlM time curl hstep h hzero listable]
  exact arrayOf_holds_iff (nulFree_storedTexts hxml.content_nul)

namespace AtmosDirectoryEntry

/-- One round: lists go to the parent, texts to their fields. -/
theorem parseChild_eq (entry : AtmosDirectoryEntry) (child : Node) :
    ∃ type, parseChild time curl xml entry child =
      (listStep time curl xml.toXmlText entry.parent child).map fun parent =>
        { parent
          objectId := copyValue (childText xml.toXmlText dirNodeObjectId child) entry.objectId
          type
          filename :=
            copyValue (childText xml.toXmlText dirNodeFileName child) entry.filename } := by
  cases child with
  | element name children =>
      simp only [parseChild, listStep, childText_element, Node.onElement]
      by_cases hid : name = dirNodeObjectId
      · subst hid
        exact ⟨entry.type, by simp +decide [copyValue]⟩
      · by_cases htype : name = dirNodeFileType
        · subst htype
          cases xml.nodeGetContent (.element dirNodeFileType children) with
          | none => exact ⟨entry.type, by simp +decide [copyValue]⟩
          | some value =>
              by_cases hdirectory : value = atmosTypeDirectory
              · exact ⟨some .directory, by simp +decide [copyValue, hdirectory]⟩
              · by_cases hregular : value = atmosTypeRegular
                · exact ⟨some .regular, by simp +decide [copyValue, hregular]⟩
                · exact ⟨entry.type, by simp +decide [copyValue, hdirectory, hregular]⟩
        · by_cases hfile : name = dirNodeFileName
          · subst hfile
            exact ⟨entry.type, by simp +decide [copyValue]⟩
          · refine ⟨entry.type, ?_⟩
            rw [if_neg hid, if_neg htype, if_neg hfile, if_neg hid, if_neg hfile]
            split
            · rfl
            · split <;> rfl
  | _ => exact ⟨entry.type, rfl⟩

/-- The fields of an entry hold the texts of its children. -/
structure HoldsTexts (xml : LibxmlReader) (entry : AtmosDirectoryEntry)
    (children : List Node) : Prop where
  objectId : HoldsValue entry.objectId (lastText xml.toXmlText dirNodeObjectId children)
  filename : HoldsValue entry.filename (lastText xml.toXmlText dirNodeFileName children)
  metadata : MetadataHeld xml.toXmlText entry.parent children

/-- The texts of an entry fit. -/
structure FitsTexts (xml : LibxmlReader) (children : List Node) : Prop where
  objectId : ValueFits atmosOidLength (lastText xml.toXmlText dirNodeObjectId children)
  filename : ValueFits atmosPathMax (lastText xml.toXmlText dirNodeFileName children)
  metadata : MetadataFits xml.toXmlText children

/-- What a round that succeeds has stored. -/
theorem parseChild_eq_some {entry entry' : AtmosDirectoryEntry} {child : Node}
    (h : parseChild time curl xml entry child = some entry') :
    listStep time curl xml.toXmlText entry.parent child = some entry'.parent ∧
      entry'.objectId =
        copyValue (childText xml.toXmlText dirNodeObjectId child) entry.objectId ∧
      entry'.filename =
        copyValue (childText xml.toXmlText dirNodeFileName child) entry.filename := by
  obtain ⟨type, heq⟩ := @parseChild_eq time curl xml entry child
  rw [heq] at h
  obtain ⟨parent, hparent, rfl⟩ := Option.map_eq_some_iff.mp h
  exact ⟨hparent, rfl, rfl⟩

theorem parseEntry_isSome_iff (children : List Node) :
    (parseEntry time curl xml children).isSome ↔
      ∀ child ∈ children, ∀ texts ∈ systemTexts xml.toXmlText child, texts.SystemFits := by
  apply foldlM_isSome_iff
  intro entry child
  obtain ⟨type, heq⟩ := @parseChild_eq time curl xml entry child
  rw [heq, Option.isSome_map, listStep_isSome_iff]

/-- **An entry** is parsed, and its fields hold its texts, exactly when they
fit. -/
theorem parseEntry_holds_iff (hxml : xml.Documented) (children : List Node) :
    (∃ entry, parseEntry time curl xml children = some entry ∧
      entry.HoldsTexts xml children) ↔ FitsTexts xml children := by
  have hfields : ∀ entry, parseEntry time curl xml children = some entry →
      (entry.HoldsTexts xml children ↔
        ValueFits atmosOidLength (lastText xml.toXmlText dirNodeObjectId children) ∧
        ValueFits atmosPathMax (lastText xml.toXmlText dirNodeFileName children) ∧
        ∀ listable, ∀ texts ∈ storedTexts xml.toXmlText listable children, texts.Fits) := by
    intro entry h
    have hid := copied_foldlM (by decide) objectId (fun h => (parseChild_eq_some h).2.1) hxml h rfl
    have hname :=
      copied_foldlM (by decide) filename (fun h => (parseChild_eq_some h).2.2) hxml h rfl
    have hmeta := metadataHeld_iff parent (fun h => (parseChild_eq_some h).1) hxml h rfl
    rw [← hid, ← hname, ← hmeta]
    exact ⟨fun h => ⟨h.objectId, h.filename, h.metadata⟩, fun h => ⟨h.1, h.2.1, h.2.2⟩⟩
  constructor
  · rintro ⟨entry, hentry, hholds⟩
    obtain ⟨hid, hname, huser⟩ := (hfields entry hentry).mp hholds
    have hsystem := (parseEntry_isSome_iff children).mp (Option.isSome_of_eq_some hentry)
    exact ⟨hid, hname, hsystem, huser⟩
  · rintro ⟨hid, hname, hsystem, huser⟩
    obtain ⟨entry, hentry⟩ :=
      Option.isSome_iff_exists.mp ((parseEntry_isSome_iff children).mpr hsystem)
    exact ⟨entry, hentry, (hfields entry hentry).mpr ⟨hid, hname, huser⟩⟩

end AtmosDirectoryEntry

namespace AtmosObjectListing

/-- One round: lists go to the parent, the id to its field. -/
theorem parseChild_eq (entry : AtmosObjectListing) (child : Node) :
    parseChild time curl xml entry child =
      (listStep time curl xml.toXmlText entry.parent child).map fun parent =>
        { parent
          objectId :=
            copyValue (childText xml.toXmlText dirNodeObjectId child) entry.objectId } := by
  cases child with
  | element name children =>
      simp only [parseChild, listStep, childText_element, Node.onElement]
      by_cases hid : name = dirNodeObjectId
      · subst hid
        simp +decide [copyValue]
      · rw [if_neg hid, if_neg hid]
        split
        · rfl
        · split <;> rfl
  | _ => rfl

/-- The fields of an entry hold the texts of its children. -/
structure HoldsTexts (xml : LibxmlReader) (entry : AtmosObjectListing)
    (children : List Node) : Prop where
  objectId : HoldsValue entry.objectId (lastText xml.toXmlText dirNodeObjectId children)
  metadata : MetadataHeld xml.toXmlText entry.parent children

/-- The texts of an entry fit. -/
structure FitsTexts (xml : LibxmlReader) (children : List Node) : Prop where
  objectId : ValueFits atmosOidLength (lastText xml.toXmlText dirNodeObjectId children)
  metadata : MetadataFits xml.toXmlText children

/-- What a round that succeeds has stored. -/
theorem parseChild_eq_some {entry entry' : AtmosObjectListing} {child : Node}
    (h : parseChild time curl xml entry child = some entry') :
    listStep time curl xml.toXmlText entry.parent child = some entry'.parent ∧
      entry'.objectId =
        copyValue (childText xml.toXmlText dirNodeObjectId child) entry.objectId := by
  rw [parseChild_eq] at h
  obtain ⟨parent, hparent, rfl⟩ := Option.map_eq_some_iff.mp h
  exact ⟨hparent, rfl⟩

theorem parseEntry_isSome_iff (children : List Node) :
    (parseEntry time curl xml children).isSome ↔
      ∀ child ∈ children, ∀ texts ∈ systemTexts xml.toXmlText child, texts.SystemFits := by
  apply foldlM_isSome_iff
  intro entry child
  rw [parseChild_eq, Option.isSome_map, listStep_isSome_iff]

/-- **An entry** is parsed, and its fields hold its texts, exactly when they
fit. -/
theorem parseEntry_holds_iff (hxml : xml.Documented) (children : List Node) :
    (∃ entry, parseEntry time curl xml children = some entry ∧
      entry.HoldsTexts xml children) ↔ FitsTexts xml children := by
  have hfields : ∀ entry, parseEntry time curl xml children = some entry →
      (entry.HoldsTexts xml children ↔
        ValueFits atmosOidLength (lastText xml.toXmlText dirNodeObjectId children) ∧
        ∀ listable, ∀ texts ∈ storedTexts xml.toXmlText listable children, texts.Fits) := by
    intro entry h
    have hid := copied_foldlM (by decide) objectId (fun h => (parseChild_eq_some h).2) hxml h rfl
    have hmeta := metadataHeld_iff parent (fun h => (parseChild_eq_some h).1) hxml h rfl
    rw [← hid, ← hmeta]
    exact ⟨fun h => ⟨h.objectId, h.metadata⟩, fun h => ⟨h.1, h.2⟩⟩
  constructor
  · rintro ⟨entry, hentry, hholds⟩
    obtain ⟨hid, huser⟩ := (hfields entry hentry).mp hholds
    have hsystem := (parseEntry_isSome_iff children).mp (Option.isSome_of_eq_some hentry)
    exact ⟨hid, hsystem, huser⟩
  · rintro ⟨hid, hsystem, huser⟩
    obtain ⟨entry, hentry⟩ :=
      Option.isSome_iff_exists.mp ((parseEntry_isSome_iff children).mpr hsystem)
    exact ⟨entry, hentry, (hfields entry hentry).mpr ⟨hid, huser⟩⟩

end AtmosObjectListing

namespace AtmosVersion

/-- A child with a time that can be parsed, if it is one. -/
def ItimeFits (xml : LibxmlReader) (child : Node) : Prop :=
  ∀ text, childText xml.toXmlText verNodeItime child = some text →
    0 < text.length ∧ text.length ≤ 252

/-- One round succeeds unless there is a time that cannot be parsed. -/
theorem parseChild_isSome_iff (entry : AtmosVersion) (child : Node) :
    (parseChild time xml entry child).isSome ↔ ItimeFits xml child := by
  cases child with
  | element name children =>
      simp only [parseChild, ItimeFits, childText_element, Node.onElement]
      have hnames : verNodeItime ≠ verNodeOid ∧ verNodeItime ≠ verNodeVerNum := by decide
      by_cases htime : name = verNodeItime
      · subst htime
        rw [if_neg hnames.1, if_neg hnames.2, if_pos rfl, if_pos rfl]
        cases xml.nodeGetContent (.element verNodeItime children) with
        | none => simp
        | some text => simp [parseXmlDatetime_isSome_iff]
      · rw [if_neg htime]
        split
        · simp
        · split <;> simp
  | _ => simp [parseChild, ItimeFits, childText, Node.onElement]

/-- What a round that succeeds has stored. -/
theorem parseChild_eq_some {entry entry' : AtmosVersion} {child : Node}
    (h : parseChild time xml entry child = some entry') :
    entry'.objectId = copyValue (childText xml.toXmlText verNodeOid child) entry.objectId := by
  cases child with
  | element name children =>
      simp only [parseChild, Node.onElement] at h
      rw [childText_element]
      split at h
      · rename_i hid
        obtain rfl := Option.some.inj h
        rw [if_pos hid]
      · rename_i hid
        rw [if_neg hid]
        split at h
        · obtain rfl := Option.some.inj h
          cases xml.nodeGetContent (.element name children) <;> rfl
        · split at h
          · cases hvalue : xml.nodeGetContent (.element name children) with
            | none =>
                rw [hvalue] at h
                obtain rfl := Option.some.inj h
                rfl
            | some value =>
                rw [hvalue] at h
                obtain ⟨itime, -, rfl⟩ := Option.map_eq_some_iff.mp h
                rfl
          · obtain rfl := Option.some.inj h
            rfl
  | _ =>
      obtain rfl := Option.some.inj h
      rfl

/-- The texts of an entry fit. -/
structure FitsTexts (xml : LibxmlReader) (children : List Node) : Prop where
  objectId : ValueFits atmosOidLength (lastText xml.toXmlText verNodeOid children)
  itime : ∀ child ∈ children, ItimeFits xml child

/-- **An entry** is parsed, and its field holds its text, exactly when they fit. -/
theorem parseEntry_holds_iff (hxml : xml.Documented) (children : List Node) :
    (∃ entry, parseEntry time xml children = some entry ∧
      HoldsValue entry.objectId (lastText xml.toXmlText verNodeOid children)) ↔
      FitsTexts xml children := by
  have hsome : (parseEntry time xml children).isSome ↔ ∀ child ∈ children, ItimeFits xml child :=
    foldlM_isSome_iff parseChild_isSome_iff children init
  have hid : ∀ entry, parseEntry time xml children = some entry →
      (HoldsValue entry.objectId (lastText xml.toXmlText verNodeOid children) ↔
        ValueFits atmosOidLength (lastText xml.toXmlText verNodeOid children)) :=
    fun entry h => copied_foldlM (by decide) objectId parseChild_eq_some hxml h rfl
  constructor
  · rintro ⟨entry, hentry, hholds⟩
    exact ⟨(hid entry hentry).mp hholds, hsome.mp (Option.isSome_of_eq_some hentry)⟩
  · rintro ⟨hfits, hitime⟩
    obtain ⟨entry, hentry⟩ := Option.isSome_iff_exists.mp (hsome.mpr hitime)
    exact ⟨entry, hentry, (hid entry hentry).mpr hfits⟩

end AtmosVersion

end Entries

/-! ## Whole documents -/

section Documents

variable {time : TimeLibrary} {xml : LibxmlReader}

/-- The elements that a listing has an entry for. -/
def entryNodes (xml : LibxmlReader) (doc : xml.Document) (list entry : CStr) : List Node :=
  if (selectNodes xml doc list true).length = 0 then [] else selectNodes xml doc entry true

/-- A listing that starts empty has the entries of all its elements. -/
theorem parseListing_nil {α : Type} (doc : xml.Document) (list entry : CStr)
    (parseEntry : List Node → Option α) :
    parseListing xml doc list entry parseEntry [] =
      (entryNodes xml doc list entry).mapM fun node => parseEntry node.children := by
  unfold parseListing entryNodes
  split
  · rfl
  · dsimp only
    by_cases hnil : selectNodes xml doc entry true = []
    · rw [if_pos hnil, hnil]
      rfl
    · rw [if_neg hnil]

/-- The entries of a listing are stored when each is. -/
theorem parseListing_holds_iff {α : Type} {parseEntry : List Node → Option α}
    {Holds : α → List Node → Prop} {Fits : List Node → Prop}
    (hentry : ∀ children, (∃ entry, parseEntry children = some entry ∧ Holds entry children) ↔
      Fits children) (doc : xml.Document) (list entry : CStr) :
    (∃ entries, parseListing xml doc list entry parseEntry [] = some entries ∧
      List.Forall₂ (fun node entry => Holds entry node.children)
        (entryNodes xml doc list entry) entries) ↔
      ∀ node ∈ entryNodes xml doc list entry, Fits node.children := by
  rw [parseListing_nil, mapM_forall₂_iff]
  exact forall₂_congr fun node _ => hentry node.children

namespace AtmosGetObjectInfoResponse

/-- A value of the document. -/
def valueOf (xml : LibxmlReader) (doc : xml.Document) (selector : CStr) : Option CStr :=
  selectSingleNodeValue xml doc selector true

/-- The fields of a replica hold its texts. -/
structure ReplicaHolds (xml : LibxmlReader) (doc : xml.Document) (i : Nat)
    (replica : AtmosReplicaInfo) : Prop where
  type : HoldsValue replica.type (replicaValue xml doc i (bytes "type"))
  location : HoldsValue replica.location (replicaValue xml doc i (bytes "location"))
  storageType : HoldsValue replica.storageType (replicaValue xml doc i (bytes "storageType"))

/-- The texts of a replica fit. -/
structure ReplicaFits (xml : LibxmlReader) (doc : xml.Document) (i : Nat) : Prop where
  type : ValueFits 16 (replicaValue xml doc i (bytes "type"))
  location : ValueFits atmosSimpleHeaderMax (replicaValue xml doc i (bytes "location"))
  storageType : ValueFits atmosSimpleHeaderMax (replicaValue xml doc i (bytes "storageType"))

theorem parseReplica_holds_iff (hxml : xml.Documented) (doc : xml.Document) (i : Nat) :
    ReplicaHolds xml doc i (parseReplica xml doc i) ↔ ReplicaFits xml doc i := by
  have hcopy : ∀ {n : Nat}, 0 < n → ∀ field,
      HoldsValue (copyValue (replicaValue xml doc i field) (.zero n))
        (replicaValue xml doc i field) ↔ ValueFits n (replicaValue xml doc i field) :=
    fun hn field => copyValue_holds_iff hn (nul_selectSingleNodeValue hxml)
  have htype := hcopy (by decide : 0 < 16) (bytes "type")
  have hlocation := hcopy (by decide : 0 < atmosSimpleHeaderMax) (bytes "location")
  have hstorage := hcopy (by decide : 0 < atmosSimpleHeaderMax) (bytes "storageType")
  exact ⟨fun h => ⟨htype.mp h.type, hlocation.mp h.location, hstorage.mp h.storageType⟩,
    fun h => ⟨htype.mpr h.type, hlocation.mpr h.location, hstorage.mpr h.storageType⟩⟩

/-- An end is read unless it is too long for the buffer of its parser. -/
theorem parseEnd_isSome_iff (doc : xml.Document) (selector : CStr) (old : Int64) :
    (parseEnd time xml doc selector old).isSome ↔ ValueFits 253 (valueOf xml doc selector) := by
  unfold parseEnd valueOf ValueFits
  cases selectSingleNodeValue xml doc selector true with
  | none => simp
  | some text =>
      rw [Option.elim_some]
      by_cases hnil : text = []
      · simp [hnil]
      · have hpos := List.length_pos_iff.mpr hnil
        rw [if_neg hnil, parseXmlDatetime_isSome_iff]
        constructor
        · rintro ⟨-, hlength⟩ text' htext'
          obtain rfl := Option.some.inj htext'
          omega
        · intro h
          have hlength := h text rfl
          exact ⟨hpos, by omega⟩

/-- The fields of the information hold its texts. -/
structure HoldsTexts (xml : LibxmlReader) (doc : xml.Document)
    (info : AtmosGetObjectInfoResponse) : Prop where
  objectId : HoldsValue info.objectId (valueOf xml doc (bytes "//cos:objectId"))
  selection : HoldsValue info.selection (valueOf xml doc (bytes "//cos:selection"))
  replicas : List.Forall₂ (ReplicaHolds xml doc) (List.range (replicaCount xml doc)) info.replicas

/-- The texts of the information fit, those of its times included. -/
structure FitsTexts (xml : LibxmlReader) (doc : xml.Document) : Prop where
  objectId : ValueFits atmosOidLength (valueOf xml doc (bytes "//cos:objectId"))
  selection : ValueFits atmosSimpleHeaderMax (valueOf xml doc (bytes "//cos:selection"))
  replicas : ∀ i < replicaCount xml doc, ReplicaFits xml doc i
  retention : ValueFits 253 (valueOf xml doc (bytes "//cos:retention/cos:endAt"))
  expiration : ValueFits 253 (valueOf xml doc (bytes "//cos:expiration/cos:endAt"))

/-- What a parser that succeeds has stored. -/
theorem parse_init_eq_some {doc : xml.Document} {self : AtmosGetObjectInfoResponse}
    (h : parse time xml doc init = some self) :
    self.objectId = copyValue (valueOf xml doc (bytes "//cos:objectId")) (.zero _) ∧
      self.selection = copyValue (valueOf xml doc (bytes "//cos:selection")) (.zero _) ∧
      self.replicas = (List.range (replicaCount xml doc)).map (parseReplica xml doc) := by
  unfold parse at h
  obtain ⟨retentionEnd, -, h⟩ := Option.bind_eq_some_iff.mp h
  obtain ⟨expirationEnd, -, h⟩ := Option.bind_eq_some_iff.mp h
  obtain rfl := Option.some.inj h
  refine ⟨rfl, rfl, ?_⟩
  dsimp only
  split
  · rename_i hcount
    rw [hcount]
    rfl
  · rfl

theorem parse_isSome_iff (doc : xml.Document) (self : AtmosGetObjectInfoResponse) :
    (parse time xml doc self).isSome ↔
      ValueFits 253 (valueOf xml doc (bytes "//cos:retention/cos:endAt")) ∧
        ValueFits 253 (valueOf xml doc (bytes "//cos:expiration/cos:endAt")) := by
  rw [← @parseEnd_isSome_iff time xml doc _ self.retentionEnd,
    ← @parseEnd_isSome_iff time xml doc _ self.expirationEnd, parse]
  cases parseEnd time xml doc (bytes "//cos:retention/cos:endAt") self.retentionEnd with
  | none => simp
  | some retentionEnd =>
      cases parseEnd time xml doc (bytes "//cos:expiration/cos:endAt") self.expirationEnd with
      | none => simp
      | some expirationEnd => simp

/-- **The information about an object** is parsed, and its fields hold its texts,
exactly when they fit. -/
theorem parse_holds_iff (hxml : xml.Documented) (doc : xml.Document) :
    (∃ self, parse time xml doc init = some self ∧ self.HoldsTexts xml doc) ↔
      FitsTexts xml doc := by
  have hcopy : ∀ {n : Nat}, 0 < n → ∀ selector,
      HoldsValue (copyValue (valueOf xml doc selector) (.zero n)) (valueOf xml doc selector) ↔
        ValueFits n (valueOf xml doc selector) :=
    fun hn selector => copyValue_holds_iff hn (nul_selectSingleNodeValue hxml)
  have hfields : ∀ self, parse time xml doc init = some self → (self.HoldsTexts xml doc ↔
      ValueFits atmosOidLength (valueOf xml doc (bytes "//cos:objectId")) ∧
      ValueFits atmosSimpleHeaderMax (valueOf xml doc (bytes "//cos:selection")) ∧
      ∀ i < replicaCount xml doc, ReplicaFits xml doc i) := by
    intro self h
    obtain ⟨hid, hselection, hreplicas⟩ := parse_init_eq_some h
    have hall : List.Forall₂ (ReplicaHolds xml doc) (List.range (replicaCount xml doc))
        self.replicas ↔ ∀ i < replicaCount xml doc, ReplicaFits xml doc i := by
      rw [hreplicas, List.forall₂_map_right_iff, List.forall₂_same]
      simp only [List.mem_range, parseReplica_holds_iff hxml]
    rw [← hall, ← hcopy (by decide : 0 < atmosOidLength),
      ← hcopy (by decide : 0 < atmosSimpleHeaderMax), ← hid, ← hselection]
    exact ⟨fun h => ⟨h.objectId, h.selection, h.replicas⟩, fun h => ⟨h.1, h.2.1, h.2.2⟩⟩
  constructor
  · rintro ⟨self, hself, hholds⟩
    obtain ⟨hid, hselection, hreplicas⟩ := (hfields self hself).mp hholds
    obtain ⟨hretention, hexpiration⟩ :=
      (parse_isSome_iff doc init).mp (Option.isSome_of_eq_some hself)
    exact ⟨hid, hselection, hreplicas, hretention, hexpiration⟩
  · rintro ⟨hid, hselection, hreplicas, hretention, hexpiration⟩
    obtain ⟨self, hself⟩ := Option.isSome_iff_exists.mp
      ((@parse_isSome_iff time xml doc init).mpr ⟨hretention, hexpiration⟩)
    exact ⟨self, hself, (hfields self hself).mpr ⟨hid, hselection, hreplicas⟩⟩

end AtmosGetObjectInfoResponse

/-- **The version of the service**, by `strcpy`. -/
theorem AtmosServiceInfoResponse.parse_holds_iff (hxml : xml.Documented) (doc : xml.Document) :
    (∃ self, AtmosServiceInfoResponse.init.parse xml doc = some self ∧
      HoldsValue self.version (selectSingleNodeValue xml doc (bytes "//cos:Atmos") true)) ↔
      ValueFits 64 (selectSingleNodeValue xml doc (bytes "//cos:Atmos") true) := by
  have hnul := @nul_selectSingleNodeValue xml hxml doc (bytes "//cos:Atmos") true
  unfold AtmosServiceInfoResponse.parse
  cases hvalue : selectSingleNodeValue xml doc (bytes "//cos:Atmos") true with
  | none => simp [ValueFits, HoldsValue, AtmosServiceInfoResponse.init, Block.zero_holds]
  | some text =>
      have hsome := Block.strcpy_isSome_iff AtmosServiceInfoResponse.init.version text
      have hfits : ValueFits 64 (some text) ↔ text.length < 64 := by simp [ValueFits]
      rw [Option.elim_some, hfits, ← hsome]
      constructor
      · rintro ⟨self, hself, -⟩
        obtain ⟨version, hversion, -⟩ := Option.map_eq_some_iff.mp hself
        exact Option.isSome_of_eq_some hversion
      · intro hwritten
        obtain ⟨version, hversion⟩ := Option.isSome_iff_exists.mp hwritten
        rw [hversion]
        exact ⟨_, rfl, Block.strcpy_holds (hnul text hvalue) hversion⟩

/-- **The message of an error**, by `strcpy`. -/
theorem AtmosResponse.parseError_holds_iff (doc : xml.Document) :
    (∃ self, (AtmosResponse.init .atmosResponse).parseError xml doc = some self ∧
      self.atmosErrorMessage = ((errorMessage xml doc).getD []).take (atmosErrorMax - 1)) ↔
      ValueFits atmosErrorMax (errorMessage xml doc) := by
  rw [ValueFits, ← AtmosResponse.parseError_isSome_iff xml doc (.init .atmosResponse)]
  constructor
  · rintro ⟨self, hself, -⟩
    exact Option.isSome_of_eq_some hself
  · intro hsome
    obtain ⟨self, hself⟩ := Option.isSome_iff_exists.mp hsome
    have hfits := (AtmosResponse.parseError_isSome_iff xml doc (.init .atmosResponse)).mp hsome
    refine ⟨self, hself, (AtmosResponse.parseError_eq_some hself).2.trans ?_⟩
    cases hmessage : errorMessage xml doc with
    | none => rfl
    | some message =>
        have hlength := hfits message hmessage
        rw [Option.getD_some, Option.getD_some, List.take_of_length_le (by omega)]

end Documents

/-! ## Locations -/

section Locations

variable (env : ReplyEnv)

/-- A reply whose location, if it has one, is a C string. -/
structure LocationReply where
  reply : Reply
  nul : ∀ location, reply.getHeaderValue env httpHeaderLocation = some location → 0 ∉ location

variable {env} (answer : LocationReply env)

def LocationReply.location : Option CStr := answer.reply.getHeaderValue env httpHeaderLocation

/-- The object id in a location. -/
def LocationReply.objectId : Option CStr :=
  answer.location.map (·.drop atmosOidLocationPrefixSize)

/-- The token in a location that is the path of one. -/
def LocationReply.tokenId : Option CStr :=
  answer.location.bind fun location =>
    if atmosAccessTokenLocationPrefix <+: location then
      some (location.drop atmosAccessTokenLocationPrefix.length)
    else none

/-- The field for the object id in a location. -/
def LocationReply.copied : Except Fault (Block atmosOidLength) :=
  answer.location.elim (.ok (.zero _)) (copyLocation (.zero _))

/-- What follows the prefix of a location is there, and shorter than the field. -/
def LocationReply.ObjectIdFits : Prop :=
  ∀ location, answer.location = some location →
    atmosOidLocationPrefixSize ≤ location.length ∧
      location.length < atmosOidLocationPrefixSize + atmosOidLength

/-- What is written to a zeroed field is followed by zeros. -/
theorem write_zero_eq {n : Nat} {text : CStr} (h : text.length ≤ n) :
    (Block.zero n).write 0 text = some (.strncpy text) := by
  have hfits : 0 + text.length ≤ n := by omega
  rw [Block.write_of_fits _ hfits, Block.strncpy, Option.some_inj, Block.mk.injEq, Block.put_mem,
    strncpy, Block.zero, List.take_zero, List.nil_append, List.drop_replicate, Nat.zero_add,
    List.take_of_length_le h]

/-- Copying a location to a zeroed field. -/
theorem copyLocation_holds_iff {location : CStr} (hnul : 0 ∉ location) :
    (∃ field, copyLocation (.zero _) location = .ok field ∧
      field.Holds (location.drop atmosOidLocationPrefixSize)) ↔
      atmosOidLocationPrefixSize ≤ location.length ∧
        location.length < atmosOidLocationPrefixSize + atmosOidLength := by
  have hsizes : atmosOidLength = 65 ∧ atmosOidLocationPrefixSize = 14 := ⟨rfl, rfl⟩
  have hdrop : 0 ∉ location.drop atmosOidLocationPrefixSize :=
    fun hmem => hnul (List.mem_of_mem_drop hmem)
  have hlength : (location.drop atmosOidLocationPrefixSize).length =
      location.length - atmosOidLocationPrefixSize := List.length_drop
  unfold copyLocation
  by_cases hlong : atmosOidLength - 1 + atmosOidLocationPrefixSize < location.length
  · -- the field stays empty
    rw [if_pos hlong]
    constructor
    · rintro ⟨field, hfield, hholds⟩
      obtain rfl := Except.ok.inj hfield
      have hempty := @Block.zero_holds atmosOidLength (by decide)
      rw [Block.Holds, hempty, Option.some_inj] at hholds
      have htake := congrArg List.length hholds
      rw [List.length_take, List.length_take, List.length_nil, hlength] at htake
      omega
    · intro h
      omega
  · rw [if_neg hlong]
    by_cases hshort : location.length < atmosOidLocationPrefixSize
    · rw [if_pos hshort]
      constructor
      · rintro ⟨field, hfield, -⟩
        cases hfield
      · intro h
        omega
    · rw [if_neg hshort, write_zero_eq (by omega)]
      constructor
      · intro h
        omega
      · intro h
        exact ⟨_, rfl, (Block.strncpy_holds_iff hdrop).mpr (by omega)⟩

/-- **The object id in a location**, by `strncpy` with its own length. -/
theorem LocationReply.copied_holds_iff :
    (∃ field, answer.copied = .ok field ∧ HoldsValue field answer.objectId) ↔
      answer.ObjectIdFits := by
  have hnul := answer.nul
  rw [LocationReply.copied, LocationReply.objectId, LocationReply.ObjectIdFits,
    LocationReply.location]
  cases hlocation : answer.reply.getHeaderValue env httpHeaderLocation with
  | none => simp [HoldsValue, Block.zero_holds]
  | some location =>
      have hiff := copyLocation_holds_iff (hnul location hlocation)
      rw [Option.elim_some, Option.map_some]
      constructor
      · intro h location' hlocation'
        obtain rfl := Option.some.inj hlocation'
        exact hiff.mp h
      · intro h
        exact hiff.mpr (h location rfl)

/-- **The token in a location**, by `strncpy` with the size of the field. -/
theorem LocationReply.tokenId_holds_iff :
    HoldsValue (copyValue answer.tokenId (.zero atmosSimpleHeaderMax)) answer.tokenId ↔
      ValueFits atmosSimpleHeaderMax answer.tokenId := by
  apply copyValue_holds_iff (by decide)
  intro text h
  obtain ⟨location, hlocation, hsome⟩ := Option.bind_eq_some_iff.mp h
  split at hsome
  · obtain rfl := Option.some.inj hsome
    exact fun hmem => answer.nul location hlocation (List.mem_of_mem_drop hmem)
  · cases hsome

/-! ### The filters -/

/-- A filter that finds a success parses its fields. -/
theorem parseUnless_of_passed {failed : Int → Bool}
    {parse : ResponseData → Except Fault ResponseData} {response : Response}
    (h : failed response.parent.httpCode = false) :
    parseUnless failed parse response =
      (parse response.data).map fun data => { response with data } := by
  rw [parseUnless, if_neg (by simp [h])]

/-- The field a filter copies the location of an answer to. -/
def LocationReply.copiedTo (before : Block atmosOidLength) :
    Except Fault (Block atmosOidLength) :=
  answer.location.elim (.ok before) (copyLocation before)

/-- A location that is copied where there is one. -/
theorem map_copiedTo (data : Block atmosOidLength → ResponseData) (parent : AtmosResponse)
    (before : Block atmosOidLength) :
    ((answer.reply.getHeaderValue env httpHeaderLocation).elim (.ok (data before))
        fun location => (copyLocation before location).map data).map
          (fun result => (⟨parent, result⟩ : Response)) =
      (answer.copiedTo before).map fun after => ⟨parent, data after⟩ := by
  rw [LocationReply.copiedTo, LocationReply.location]
  cases answer.reply.getHeaderValue env httpHeaderLocation with
  | none => rfl
  | some location =>
      dsimp only [Option.elim_some]
      cases copyLocation before location <;> rfl

/-- The filter of a new object copies the location. -/
theorem parseCreateResponse_eq {parent : AtmosResponse} (hcode : parent.httpCode = 201) :
    AtmosFilter.After.parseCreateResponse env answer.reply ⟨parent, .createObject (.zero _)⟩ =
      answer.copied.map fun objectId => ⟨parent, .createObject objectId⟩ := by
  rw [AtmosFilter.After.parseCreateResponse, parseUnless_of_passed (by simp [hcode])]
  exact map_copiedTo answer .createObject parent (.zero _)

/-- So does the filter of a new version. -/
theorem parseCreateVersionResponse_eq {parent : AtmosResponse}
    (hcode : aboveSuccess parent.httpCode = false) :
    AtmosFilter.After.parseCreateVersionResponse env answer.reply
        ⟨parent, .createVersion (.zero _)⟩ =
      answer.copied.map fun versionId => ⟨parent, .createVersion versionId⟩ := by
  rw [AtmosFilter.After.parseCreateVersionResponse, parseUnless_of_passed hcode]
  exact map_copiedTo answer .createVersion parent (.zero _)

/-- A filter that copies the location leaves the object id exactly when it
fits. -/
theorem copied_filter_holds_iff {success : AtmosResponse → Prop}
    {run : AtmosResponse → Except Fault Response}
    {data : Block atmosOidLength → ResponseData} (hdata : Function.Injective data)
    (hrun : ∀ parent, success parent →
      run parent = answer.copied.map fun objectId => ⟨parent, data objectId⟩)
    {parent : AtmosResponse} (hparent : success parent) :
    (∀ parent, success parent → ∃ objectId, run parent = .ok ⟨parent, data objectId⟩ ∧
      HoldsValue objectId answer.objectId) ↔ answer.ObjectIdFits := by
  have hone : ∀ parent, success parent →
      ((∃ objectId, run parent = .ok ⟨parent, data objectId⟩ ∧
        HoldsValue objectId answer.objectId) ↔ answer.ObjectIdFits) := by
    intro parent hparent
    rw [hrun parent hparent]
    exact (exists_map_eq_ok (Response.injective hdata parent)).trans answer.copied_holds_iff
  constructor
  · intro h
    exact (hone parent hparent).mp (h parent hparent)
  · intro hfits parent' hparent'
    exact (hone parent' hparent').mpr hfits

/-- The filter of a new token copies what follows its path. -/
theorem createAccessToken_eq {parent : AtmosResponse}
    (hcode : aboveSuccess parent.httpCode = false) :
    AtmosFilter.After.createAccessToken env answer.reply ⟨parent, .createAccessToken (.zero _)⟩ =
      .ok ⟨parent, .createAccessToken (copyValue answer.tokenId (.zero _))⟩ := by
  rw [AtmosFilter.After.createAccessToken, parseUnless_of_passed hcode, LocationReply.tokenId,
    LocationReply.location]
  cases answer.reply.getHeaderValue env httpHeaderLocation with
  | none => rfl
  | some location =>
      rw [Option.bind_some]
      dsimp only [Option.elim_some]
      split <;> rfl

end Locations

/-! ## All parsers -/

/-- What a parser reads: a document, or a reply with a location. -/
inductive TextSource (env : ReplyEnv) where
  | error (doc : env.xml.Document)
  | serviceInfo (doc : env.xml.Document)
  | objectInfo (doc : env.xml.Document)
  | directory (doc : env.xml.Document)
  | objects (doc : env.xml.Document)
  | versions (doc : env.xml.Document)
  | createObject (answer : LocationReply env)
  | createVersion (answer : LocationReply env)
  | createAccessToken (answer : LocationReply env)

namespace TextSource

variable {env : ReplyEnv}

/-- On a new response the parser stays in its fields, and each of these then
holds a string, as much of its text as fits. -/
def Held : TextSource env → Prop
  | error doc => ∃ response,
      (AtmosResponse.init .atmosResponse).parseError env.xml doc = some response ∧
        response.atmosErrorMessage = ((errorMessage env.xml doc).getD []).take (atmosErrorMax - 1)
  | serviceInfo doc => ∃ info, AtmosServiceInfoResponse.init.parse env.xml doc = some info ∧
      HoldsValue info.version (selectSingleNodeValue env.xml doc (bytes "//cos:Atmos") true)
  | objectInfo doc => ∃ info,
      AtmosGetObjectInfoResponse.init.parse env.time env.xml doc = some info ∧
        info.HoldsTexts env.xml doc
  | directory doc => ∃ entries,
      AtmosListDirectoryResponse.parse env.time env.curl env.xml doc [] = some entries ∧
        List.Forall₂ (fun node entry => entry.HoldsTexts env.xml node.children)
          (entryNodes env.xml doc (bytes "//cos:DirectoryList") (bytes "//cos:DirectoryEntry"))
          entries
  | objects doc => ∃ results,
      AtmosListObjectsResponse.parse env.time env.curl env.xml doc [] = some results ∧
        List.Forall₂ (fun node entry => entry.HoldsTexts env.xml node.children)
          (entryNodes env.xml doc (bytes "//cos:ListObjectsResponse") (bytes "//cos:Object"))
          results
  | versions doc => ∃ versions,
      AtmosListVersionsResponse.parse env.time env.xml doc [] = some versions ∧
        List.Forall₂ (fun node entry =>
            HoldsValue entry.objectId (lastText env.xml.toXmlText verNodeOid node.children))
          (entryNodes env.xml doc (bytes "//cos:ListVersionsResponse") (bytes "//cos:Ver"))
          versions
  | createObject answer => ∀ parent : AtmosResponse, parent.httpCode = 201 → ∃ objectId,
      AtmosFilter.After.parseCreateResponse env answer.reply ⟨parent, .createObject (.zero _)⟩ =
        .ok ⟨parent, .createObject objectId⟩ ∧ HoldsValue objectId answer.objectId
  | createVersion answer => ∀ parent : AtmosResponse, aboveSuccess parent.httpCode = false →
      ∃ versionId, AtmosFilter.After.parseCreateVersionResponse env answer.reply
          ⟨parent, .createVersion (.zero _)⟩ = .ok ⟨parent, .createVersion versionId⟩ ∧
        HoldsValue versionId answer.objectId
  | createAccessToken answer => ∀ parent : AtmosResponse, aboveSuccess parent.httpCode = false →
      ∃ tokenId, AtmosFilter.After.createAccessToken env answer.reply
          ⟨parent, .createAccessToken (.zero _)⟩ = .ok ⟨parent, .createAccessToken tokenId⟩ ∧
        HoldsValue tokenId answer.tokenId

/-- Every text the parser copies is shorter than its field. -/
def Fits : TextSource env → Prop
  | error doc => ValueFits atmosErrorMax (errorMessage env.xml doc)
  | serviceInfo doc =>
      ValueFits 64 (selectSingleNodeValue env.xml doc (bytes "//cos:Atmos") true)
  | objectInfo doc => AtmosGetObjectInfoResponse.FitsTexts env.xml doc
  | directory doc => ∀ node ∈ entryNodes env.xml doc (bytes "//cos:DirectoryList")
      (bytes "//cos:DirectoryEntry"), AtmosDirectoryEntry.FitsTexts env.xml node.children
  | objects doc => ∀ node ∈ entryNodes env.xml doc (bytes "//cos:ListObjectsResponse")
      (bytes "//cos:Object"), AtmosObjectListing.FitsTexts env.xml node.children
  | versions doc => ∀ node ∈ entryNodes env.xml doc (bytes "//cos:ListVersionsResponse")
      (bytes "//cos:Ver"), AtmosVersion.FitsTexts env.xml node.children
  | createObject answer => answer.ObjectIdFits
  | createVersion answer => answer.ObjectIdFits
  | createAccessToken answer => ValueFits atmosSimpleHeaderMax answer.tokenId

end TextSource

/-- **Texts in fixed fields**: after a parser has run on a new response, each of
its fields is a string with as much of the text as fits, and nothing else was
written, exactly when all texts fit. -/
theorem texts_held_iff {env : ReplyEnv} (hxml : env.xml.Documented) (source : TextSource env) :
    source.Held ↔ source.Fits := by
  have hpassed : aboveSuccess (AtmosResponse.init .subclass).httpCode = false := by decide
  have hcreated : ({ AtmosResponse.init .subclass with httpCode := 201 }).httpCode = 201 := rfl
  cases source with
  | error doc => exact AtmosResponse.parseError_holds_iff doc
  | serviceInfo doc => exact AtmosServiceInfoResponse.parse_holds_iff hxml doc
  | objectInfo doc => exact AtmosGetObjectInfoResponse.parse_holds_iff hxml doc
  | directory doc =>
      exact parseListing_holds_iff (AtmosDirectoryEntry.parseEntry_holds_iff hxml) doc _ _
  | objects doc =>
      exact parseListing_holds_iff (AtmosObjectListing.parseEntry_holds_iff hxml) doc _ _
  | versions doc => exact parseListing_holds_iff (AtmosVersion.parseEntry_holds_iff hxml) doc _ _
  | createObject answer =>
      exact copied_filter_holds_iff answer (fun _ _ h => ResponseData.createObject.inj h)
        (fun _ => parseCreateResponse_eq answer) hcreated
  | createVersion answer =>
      exact copied_filter_holds_iff answer (fun _ _ h => ResponseData.createVersion.inj h)
        (fun _ => parseCreateVersionResponse_eq answer) hpassed
  | createAccessToken answer =>
      change (∀ parent : AtmosResponse, _ → _) ↔ ValueFits atmosSimpleHeaderMax answer.tokenId
      rw [← answer.tokenId_holds_iff]
      constructor
      · intro h
        obtain ⟨tokenId, heq, hholds⟩ := h (.init .subclass) hpassed
        rw [createAccessToken_eq answer hpassed] at heq
        obtain ⟨-, hdata⟩ := Response.mk.inj (Except.ok.inj heq)
        obtain rfl := ResponseData.createAccessToken.inj hdata
        exact hholds
      · intro hholds parent hcode
        exact ⟨_, createAccessToken_eq answer hcode, hholds⟩

/-- The location of a token of some length. -/
def tokenLocation (length : Nat) : CStr :=
  atmosAccessTokenLocationPrefix ++ List.replicate length 97

/-- A reply with this location. -/
def tokenReply (length : Nat) : Reply :=
  { lostReply with
    httpCode := 201
    headers := [headerLine httpHeaderLocation (tokenLocation length)] }

theorem location_tokenReply (length : Nat) :
    (tokenReply length).getHeaderValue blindEnv httpHeaderLocation =
      some (tokenLocation length) := by
  have hname : colon ∉ httpHeaderLocation := by decide
  have hspace : (tokenLocation length).head? ≠ some space := by
    have hslash : atmosAccessTokenLocationPrefix.head? = some 47 := by decide
    rw [tokenLocation, List.head?_append, hslash, Option.some_or]
    decide
  rw [Reply.getHeaderValue, tokenReply, RestClient.getHeaderValue_cons, nameIs_headerLine hname,
    decide_eq_true rfl, if_pos rfl, RestClient.headerValue_headerLine _ hname hspace]

/-- The location is a C string. -/
def tokenAnswer (length : Nat) : LocationReply blindEnv where
  reply := tokenReply length
  nul location h := by
    rw [location_tokenReply] at h
    obtain rfl := Option.some.inj h
    have hpath : (0 : UInt8) ∉ atmosAccessTokenLocationPrefix := by decide
    simp [tokenLocation, hpath]

theorem tokenId_tokenAnswer (length : Nat) :
    (tokenAnswer length).tokenId = some (List.replicate length 97) := by
  have hlocation : (tokenAnswer length).location = some (tokenLocation length) :=
    location_tokenReply length
  rw [LocationReply.tokenId, hlocation, Option.bind_some, tokenLocation,
    if_pos (List.prefix_append _ _), List.drop_left]

/-- A token of 254 bytes is a string in its field. -/
theorem texts_held_iff_token : (TextSource.createAccessToken (tokenAnswer 254)).Held := by
  rw [texts_held_iff LibxmlReader.blind_documented]
  intro text htext
  rw [tokenId_tokenAnswer] at htext
  obtain rfl := Option.some.inj htext
  exact List.length_replicate.trans_lt (by decide)

/-- A token of 255 bytes fills its field, with no terminator. -/
theorem full_token_unterminated : ¬ (TextSource.createAccessToken (tokenAnswer 255)).Held := by
  intro h
  obtain ⟨tokenId, heq, hholds⟩ := h (.init .subclass) (by decide)
  rw [createAccessToken_eq _ (by decide)] at heq
  obtain ⟨-, hdata⟩ := Response.mk.inj (Except.ok.inj heq)
  obtain rfl := ResponseData.createAccessToken.inj hdata
  have hfits := (tokenAnswer 255).tokenId_holds_iff.mp hholds _ (tokenId_tokenAnswer 255)
  rw [List.length_replicate] at hfits
  exact absurd hfits (by decide)

end Atmos
