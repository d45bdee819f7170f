import Atmos.ResponseArrays

/-!
# The fields of a response

The readers copy a piece of a header to scratch buffers, take it apart there
and copy the parts to the fields of an array slot.  Names are copied with the
size of the value field, which is the larger one.

* `holdsEntry_iff` — a stored entry is right exactly when its name is shorter
  than the name field;
* `response_fields_iff` — so the fields of a response are right exactly when
  all pieces fit the scratch buffers and the arrays, and all names their field.
-/

namespace Atmos

open ByteText FixedMemory Block AtmosUtil

/-! ## One slot -/

/-- A slot holds an entry: each of its fields has the longest prefix of the
decoded text that fits, with a terminator, and is as it was behind that. -/
structure HoldsEntry (curl : Curl) (utf8 : Bool) (entry : CStr × CStr)
    (slot slot' : MetadataSlot) : Prop where
  name : ∃ text, storedText curl utf8 entry.1 = some text ∧
    slot'.nameField = overwrite slot.nameField (strlcpy text atmosMetaNameMax)
  value : ∃ text, storedText curl utf8 entry.2 = some text ∧
    slot'.valueField = overwrite slot.valueField (strlcpy text atmosMetaValueMax)

/-- A slot holds an access control entry. -/
structure HoldsAcl (item : AclItem) (slot slot' : AclSlot) : Prop where
  principal : slot'.principal.mem =
    overwrite slot.principal.mem (strlcpy item.principal atmosUidMax)
  type : slot'.type = item.type
  permission : slot'.permission = (permissionOf item.token).getD slot.permission

/-- The strings a slot shows for an entry it holds. -/
theorem HoldsEntry.strings {curl : Curl} {utf8 : Bool} {entry : CStr × CStr}
    {slot slot' : MetadataSlot} (h : HoldsEntry curl utf8 entry slot slot') {name value : CStr}
    (hname : storedText curl utf8 entry.1 = some name)
    (hvalue : storedText curl utf8 entry.2 = some value) (hnul : 0 ∉ name) (hnul' : 0 ∉ value) :
    readCStr slot'.nameField = some (name.take 254) ∧
      readCStr slot'.valueField = some (value.take 1023) := by
  obtain ⟨text, htext, hfield⟩ := h.name
  obtain ⟨text', htext', hfield'⟩ := h.value
  cases hname.symm.trans htext
  cases hvalue.symm.trans htext'
  rw [hfield, hfield']
  exact ⟨readCStr_overwrite hnul _ _, readCStr_overwrite hnul' _ _⟩

/-- Whether an entry can be stored right: it can be decoded, and its name is
shorter than the name field. -/
structure EntryFits (curl : Curl) (utf8 : Bool) (entry : CStr × CStr) : Prop where
  name : ∃ text, storedText curl utf8 entry.1 = some text ∧ text.length < atmosMetaNameMax
  value : ∃ text, storedText curl utf8 entry.2 = some text

theorem storedText_nul {curl : Curl} {utf8 : Bool} {src text : CStr} (hsrc : 0 ∉ src)
    (h : storedText curl utf8 src = some text) : 0 ∉ text := by
  unfold storedText at h
  split at h
  · obtain ⟨decoded, -, rfl⟩ := Option.map_eq_some_iff.mp h
    intro hmem
    have hne := List.mem_takeWhile_imp hmem
    exact absurd hne (by decide)
  · rw [← Option.some.inj h]
    exact hsrc

/-- A name that is shorter than its field is stored right. -/
theorem holdsEntry_of_fits {curl : Curl} {utf8 : Bool} {entry : CStr × CStr}
    (h : EntryFits curl utf8 entry) (slot : MetadataSlot) :
    HoldsEntry curl utf8 entry slot (storeEntry curl utf8 entry slot) := by
  obtain ⟨name, hname, hlength⟩ := h.name
  obtain ⟨value, hvalue⟩ := h.value
  have hshort : name.length < 255 := hlength
  have hcopied : strlcpy name atmosMetaValueMax = strlcpy name atmosMetaNameMax := by
    rw [strlcpy_of_length_lt hlength, strlcpy_of_length_lt (hlength.trans (by decide))]
  have hfield : (strlcpy name atmosMetaNameMax).length ≤ atmosMetaNameMax :=
    length_strlcpy_le name (by decide)
  simp only [storeEntry, copyUtf8, hname, hvalue, Option.elim_some, hcopied]
  refine ⟨⟨name, hname, ?_⟩, ⟨value, hvalue, ?_⟩⟩
  · rw [MetadataSlot.nameField, put_take, put_zero_take _ _ hfield]
    rfl
  · rw [MetadataSlot.valueField, put_drop, put_zero_drop _ _ hfield]
    rfl

/-- A longer name leaves its field without a terminator at the end. -/
theorem fits_of_holdsEntry {curl : Curl} {utf8 : Bool} {entry : CStr × CStr}
    (hnul : 0 ∉ entry.1) {slot : MetadataSlot}
    (h : HoldsEntry curl utf8 entry slot (storeEntry curl utf8 entry slot)) :
    EntryFits curl utf8 entry := by
  obtain ⟨name, hname, hfield⟩ := h.name
  obtain ⟨value, hvalue, -⟩ := h.value
  refine ⟨⟨name, hname, ?_⟩, ⟨value, hvalue⟩⟩
  by_contra hlong
  have hlast : 254 < name.length := Nat.lt_of_not_le fun hle => hlong (Nat.lt_succ_of_le hle)
  simp only [storeEntry, copyUtf8, hname, hvalue, Option.elim_some, MetadataSlot.nameField,
    put_take] at hfield
  rw [put_mem, List.take_zero, List.nil_append] at hfield
  have hbyte := congrArg (·[254]?) hfield
  have hstored : (overwrite (slot.mem.take atmosMetaNameMax)
      (strlcpy name atmosMetaNameMax))[254]? = some 0 := by
    have htake : (name.take (atmosMetaNameMax - 1)).length = 254 :=
      List.length_take_of_le hlast.le
    rw [overwrite, strlcpy, List.append_assoc, List.getElem?_append_right htake.le, htake]
    rfl
  have hcopied : ((strlcpy name atmosMetaValueMax ++ slot.mem.drop
      (0 + (strlcpy name atmosMetaValueMax).length)).take atmosMetaNameMax)[254]? =
        some name[254] := by
    have htake : 254 < (name.take (atmosMetaValueMax - 1)).length := by
      rw [List.length_take]
      exact Nat.lt_min.mpr ⟨by decide, hlast⟩
    rw [List.getElem?_take_of_lt (by decide), strlcpy, List.append_assoc,
      List.getElem?_append_left htake, List.getElem?_take_of_lt (by decide),
      List.getElem?_eq_getElem hlast]
  rw [hstored, hcopied] at hbyte
  exact storedText_nul hnul hname (Option.some.inj hbyte ▸ List.getElem_mem hlast)

/-- **A stored entry is right** exactly when its name is shorter than the name
field. -/
theorem holdsEntry_iff {curl : Curl} {utf8 : Bool} {entry : CStr × CStr} (hnul : 0 ∉ entry.1)
    (slot : MetadataSlot) :
    HoldsEntry curl utf8 entry slot (storeEntry curl utf8 entry slot) ↔
      EntryFits curl utf8 entry :=
  ⟨fits_of_holdsEntry hnul, fun h => holdsEntry_of_fits h slot⟩

/-- Principals have a field as large as their scratch buffer. -/
theorem holdsAcl_storeAcl (item : AclItem) (slot : AclSlot) :
    HoldsAcl item slot (storeAcl item slot) where
  principal := by
    rw [storeAcl, put_mem, List.take_zero, List.nil_append, overwrite, Nat.zero_add]
  type := rfl
  permission := rfl

/-! ## The response -/

/-- The arrays of a response after a response is read into fresh ones: every
copy has stayed inside its destination, and the arrays hold the entries of the
headers. -/
def FieldsHeld (rest : RestClient) (curl : Curl) (headers : List CStr) : Prop :=
  ∀ arrays : ResponseArrays, arrays.Fresh →
    ∃ result, arrays.parse rest curl headers = some result ∧
      HoldsItems (HoldsEntry curl (isUtf8 rest headers)) (metaItems rest headers atmosHeaderMeta)
        arrays.metadata.1 result.metadata ∧
      HoldsItems (HoldsEntry curl (isUtf8 rest headers))
        (metaItems rest headers atmosHeaderListableMeta) arrays.listableMeta.1
        result.listableMeta ∧
      HoldsItems HoldsAcl (aclItems rest headers) arrays.acl.1 result.acl

/-- A metadata header that fits: its pieces the scratch buffers, its entries
the array, and their names the name field. -/
structure MetaHeaderFits (rest : RestClient) (curl : Curl) (headers : List CStr) (name : CStr) :
    Prop where
  pieces : AllFields MetaFieldFits (metaFields rest headers name)
  room : (metaItems rest headers name).length ≤ atmosMetaCountMax
  entries : ∀ entry ∈ metaItems rest headers name, EntryFits curl (isUtf8 rest headers) entry

/-- A response that fits. -/
structure ResponseFits (rest : RestClient) (curl : Curl) (headers : List CStr) : Prop where
  metadata : MetaHeaderFits rest curl headers atmosHeaderMeta
  listableMeta : MetaHeaderFits rest curl headers atmosHeaderListableMeta
  acl : AclFieldsFit rest headers
  room : (aclItems rest headers).length ≤ atmosAclCountMax

/-- Header values are C strings. -/
def ValuesAreStrings (rest : RestClient) (headers : List CStr) : Prop :=
  ∀ name value, rest.getHeaderValue headers name = some value → 0 ∉ value

theorem valuesAreStrings (rest : RestClient) {headers : List CStr}
    (hlines : ∀ line ∈ headers, colon ∈ line ∧ 0 ∉ line) : ValuesAreStrings rest headers := by
  intro name value h hnul
  obtain ⟨line, hline, hsuffix⟩ := rest.getHeaderValue_mem (fun line hl => (hlines line hl).1) h
  exact (hlines line hline).2 (hsuffix.subset hnul)

theorem nul_notMem_metaItems {rest : RestClient} {headers : List CStr}
    (hnul : ValuesAreStrings rest headers) {name : CStr} {entry : CStr × CStr}
    (h : entry ∈ metaItems rest headers name) : 0 ∉ entry.1 := by
  obtain ⟨field, hfield, hentry⟩ := List.mem_flatMap.mp h
  have hname : entry.1 = entryName field := by
    unfold metaEntries at hentry
    split at hentry
    · exact absurd hentry List.not_mem_nil
    · rw [List.mem_singleton.mp hentry]
  rw [hname]
  intro hmem
  rw [metaFields] at hfield
  cases hvalue : rest.getHeaderValue headers name with
  | none =>
      rw [hvalue] at hfield
      exact absurd hfield List.not_mem_nil
  | some value =>
      rw [hvalue] at hfield
      exact hnul name value hvalue (subset_of_mem_splitOn hfield (entryName_subset field hmem))

/-- The readers write one array after the other. -/
theorem ResponseArrays.parse_eq_some {rest : RestClient} {curl : Curl} {headers : List CStr}
    {arrays result : ResponseArrays} :
    arrays.parse rest curl headers = some result ↔
      parseMetaHeader rest curl headers atmosHeaderMeta arrays.metadata = some result.metadata ∧
      parseMetaHeader rest curl headers atmosHeaderListableMeta arrays.listableMeta =
        some result.listableMeta ∧
      parseAclHeaders rest headers arrays.acl = some result.acl := by
  unfold ResponseArrays.parse parseUserMetaHeaders
  constructor
  · intro h
    obtain ⟨⟨metadata, listableMeta⟩, hmeta, h⟩ := Option.bind_eq_some_iff.mp h
    obtain ⟨acl, hacl, heq⟩ := Option.bind_eq_some_iff.mp h
    obtain ⟨metadata', hmetadata, hmeta⟩ := Option.bind_eq_some_iff.mp hmeta
    obtain ⟨listableMeta', hlistable, hmeta⟩ := Option.bind_eq_some_iff.mp hmeta
    cases hmeta
    cases heq
    exact ⟨hmetadata, hlistable, hacl⟩
  · rintro ⟨hmetadata, hlistable, hacl⟩
    simp [hmetadata, hlistable, hacl]

/-- What is stored for a metadata header. -/
theorem metaHeader_held_iff {rest : RestClient} {curl : Curl} {headers : List CStr}
    (hnul : ValuesAreStrings rest headers) {name : CStr} {slots : List MetadataSlot}
    (hslots : slots.length = atmosMetaCountMax) :
    (∃ array, parseMetaHeader rest curl headers name (slots, 0) = some array ∧
      HoldsItems (HoldsEntry curl (isUtf8 rest headers)) (metaItems rest headers name) slots
        array) ↔
      MetaHeaderFits rest curl headers name := by
  have hstore : ∀ entry ∈ metaItems rest headers name, ∀ slot,
      HoldsEntry curl (isUtf8 rest headers) entry slot
        (storeEntry curl (isUtf8 rest headers) entry slot) ↔
      EntryFits curl (isUtf8 rest headers) entry :=
    fun entry hentry slot => holdsEntry_iff (nul_notMem_metaItems hnul hentry) slot
  constructor
  · rintro ⟨array, hparse, hheld⟩
    obtain ⟨⟨hpieces, hroom⟩, rfl⟩ := (parseMetaHeader_eq_some ..).mp hparse
    exact ⟨hpieces, hslots ▸ hroom, (holdsItems_zipWith _ hroom hstore).mp hheld⟩
  · intro h
    have hroom := hslots.symm ▸ h.room
    exact ⟨_, (parseMetaHeader_eq_some ..).mpr ⟨⟨h.pieces, hroom⟩, rfl⟩,
      (holdsItems_zipWith _ hroom hstore).mpr h.entries⟩

/-- What is stored for the ACL headers. -/
theorem aclHeaders_held_iff {rest : RestClient} {headers : List CStr} {slots : List AclSlot}
    (hslots : slots.length = atmosAclCountMax) :
    (∃ array, parseAclHeaders rest headers (slots, 0) = some array ∧
      HoldsItems HoldsAcl (aclItems rest headers) slots array) ↔
      AclFieldsFit rest headers ∧ (aclItems rest headers).length ≤ atmosAclCountMax := by
  have hstore : ∀ item ∈ aclItems rest headers, ∀ slot,
      HoldsAcl item slot (storeAcl item slot) ↔ True :=
    fun item _ slot => iff_of_true (holdsAcl_storeAcl item slot) trivial
  constructor
  · rintro ⟨array, hparse, -⟩
    obtain ⟨⟨hfits, hroom⟩, -⟩ := (parseAclHeaders_eq ..).mp hparse
    exact ⟨hfits, hslots ▸ hroom⟩
  · rintro ⟨hfits, hroom⟩
    have hroom := hslots.symm ▸ hroom
    exact ⟨_, (parseAclHeaders_eq ..).mpr ⟨⟨hfits, hroom⟩, rfl⟩,
      (holdsItems_zipWith _ hroom hstore).mpr fun _ _ => trivial⟩

/-- **Field bounds.**  The copies that read a response stay inside their
destinations and leave every field with the longest prefix that fits it,
exactly when all pieces fit the scratch buffers and the arrays, and all names
are shorter than the name field. -/
theorem response_fields_iff {rest : RestClient} (curl : Curl) {headers : List CStr}
    (hnul : ValuesAreStrings rest headers) :
    FieldsHeld rest curl headers ↔ ResponseFits rest curl headers := by
  constructor
  · intro h
    obtain ⟨result, hparse, hmetadata, hlistable, hacl⟩ := h zeroedArrays zeroedArrays_fresh
    obtain ⟨hparseMeta, hparseListable, hparseAcl⟩ := ResponseArrays.parse_eq_some.mp hparse
    have hfits := (aclHeaders_held_iff List.length_replicate).mp ⟨_, hparseAcl, hacl⟩
    exact
      { metadata := (metaHeader_held_iff hnul List.length_replicate).mp ⟨_, hparseMeta, hmetadata⟩
        listableMeta :=
          (metaHeader_held_iff hnul List.length_replicate).mp ⟨_, hparseListable, hlistable⟩
        acl := hfits.1
        room := hfits.2 }
  · intro h arrays hfresh
    obtain ⟨metadata, hparseMeta, hmetadata⟩ :=
      (metaHeader_held_iff hnul (hfresh.size .metadata)).mpr h.metadata
    obtain ⟨listableMeta, hparseListable, hlistable⟩ :=
      (metaHeader_held_iff hnul (hfresh.size .listableMeta)).mpr h.listableMeta
    obtain ⟨acl, hparseAcl, hacl⟩ :=
      (aclHeaders_held_iff (hfresh.size .acl)).mpr ⟨h.acl, h.room⟩
    have hempty : arrays.metadata = (arrays.metadata.1, 0) ∧
        arrays.listableMeta = (arrays.listableMeta.1, 0) ∧ arrays.acl = (arrays.acl.1, 0) :=
      ⟨Prod.ext rfl (hfresh.empty .metadata), Prod.ext rfl (hfresh.empty .listableMeta),
        Prod.ext rfl (hfresh.empty .acl)⟩
    refine ⟨⟨metadata, listableMeta, acl⟩, ResponseArrays.parse_eq_some.mpr ?_, hmetadata,
      hlistable, hacl⟩
    rw [hempty.1, hempty.2.1, hempty.2.2]
    exact ⟨hparseMeta, hparseListable, hparseAcl⟩

theorem response_fields_iff_two :
    FieldsHeld .plain .standard [bytes "x-emc-meta: farbe=rot,size=3",
      bytes "x-emc-useracl: bob=READ"] := by
  have hnul := valuesAreStrings .plain (by decide :
    ∀ line ∈ [bytes "x-emc-meta: farbe=rot,size=3", bytes "x-emc-useracl: bob=READ"],
      colon ∈ line ∧ 0 ∉ line)
  have hpieces : ∀ name ∈ [atmosHeaderMeta, atmosHeaderListableMeta],
      AllFields MetaFieldFits (metaFields .plain [bytes "x-emc-meta: farbe=rot,size=3",
        bytes "x-emc-useracl: bob=READ"] name) := by decide +kernel
  refine (response_fields_iff .standard hnul).mpr
    ⟨⟨hpieces _ (by simp), by decide, ?_⟩, ⟨hpieces _ (by simp), by decide, ?_⟩,
      ⟨by decide +kernel, by decide +kernel⟩, by decide⟩
  · intro entry hentry
    cases List.mem_singleton.mp (hentry : entry ∈ [(bytes "farbe", bytes "rot")])
    exact ⟨⟨_, rfl, by decide⟩, ⟨_, rfl⟩⟩
  · intro entry hentry
    exact absurd hentry List.not_mem_nil

/-- An entry whose name has 300 bytes. -/
def longName : CStr := atmosHeaderMeta ++ bytes ": " ++ List.replicate 300 97 ++ bytes "=v"

/-- Its name is stored without a terminator, up to the last byte of its field
and behind it. -/
theorem longName_leaves_field :
    (zeroedArrays.parse .plain .standard [longName]).map (fun result =>
      (result.metadata.2, result.metadata.1[0]?.map fun slot => readCStr slot.nameField)) =
        some (1, some none) ∧
    ¬ FieldsHeld .plain .standard [longName] := by
  refine ⟨by decide +kernel, ?_⟩
  intro h
  obtain ⟨result, hparse, hmetadata, -⟩ := h zeroedArrays zeroedArrays_fresh
  have hnul := valuesAreStrings .plain (by decide +kernel :
    ∀ line ∈ [longName], colon ∈ line ∧ 0 ∉ line)
  have hfits := (metaHeader_held_iff hnul List.length_replicate).mp
    ⟨_, (ResponseArrays.parse_eq_some.mp hparse).1, hmetadata⟩
  obtain ⟨text, htext, hlength⟩ :=
    (hfits.entries (List.replicate 300 97, bytes "v") (by decide +kernel)).name
  cases htext
  exact absurd hlength (by decide +kernel)

end Atmos
