import Atmos.LastWrite
import Atmos.ResponseFields

/-!
# System metadata

The header `x-emc-meta` carries the metadata of the user and of the system.
`AtmosUtil_parse_user_meta_headers` skips the system names of a table;
`AtmosUtil_parse_system_meta_header` takes the same header apart once more and
sends every entry through a chain of comparisons, which sets one field of
`AtmosSystemMetadata`.

* `setSystemMetaEntry_name` and `setSystemMetaEntry_user` — the chain knows the
  names of the table and no others;
* `metadata_partition` — so each entry of the header goes to one of the two
  readers.
-/

namespace Atmos

open ByteText FixedMemory AtmosUtil

/-! ## The record -/

/-- A string in a field of `n` bytes. -/
structure FieldText (n : Nat) where
  text : CStr
  length_lt : text.length < n
  deriving DecidableEq, Repr

/-- `AtmosUtil_strlcpy`, into a field of its own size. -/
def FieldText.strlcpy {n : Nat} (hn : 0 < n) (src : CStr) : FieldText n where
  text := src.take (n - 1)
  length_lt := by
    have hle := List.length_take_le (n - 1) src
    omega

/-- `AtmosUtil_strlcpy_utf8`, into a field of its own size: a text that cannot
be unescaped leaves the field alone. -/
def FieldText.strlcpyUtf8 {n : Nat} (hn : 0 < n) (curl : Curl) (utf8 : Bool) (field : FieldText n)
    (src : CStr) : FieldText n :=
  if utf8 then
    (curl.easyUnescape src).elim field fun decoded => .strlcpy hn (decoded.takeWhile (· != 0))
  else .strlcpy hn src

theorem FieldText.strlcpyUtf8_eq {n : Nat} (hn : 0 < n) (curl : Curl) (utf8 : Bool)
    (field : FieldText n) (src : CStr) : field.strlcpyUtf8 hn curl utf8 src =
      ((storedText curl utf8 src).map (FieldText.strlcpy hn)).getD field := by
  unfold FieldText.strlcpyUtf8 storedText
  split
  · cases curl.easyUnescape src <;> rfl
  · rfl

/-- The texts `type` may point to. -/
inductive AtmosType where
  | regular
  | directory
  deriving DecidableEq, Repr

/-- `AtmosSystemMetadata`; without a type the pointer is null. -/
structure AtmosSystemMetadata where
  objectId : FieldText atmosOidLength
  objname : FieldText atmosPathMax
  atime : Int64
  ctime : Int64
  itime : Int64
  mtime : Int64
  size : Int64
  nlink : Int32
  type : Option AtmosType
  uid : FieldText atmosUidMax
  gid : FieldText atmosUidMax
  policyname : FieldText atmosUidMax
  wschecksum : FieldText atmosChecksumMax
  deriving DecidableEq, Repr

/-- What `AtmosUtil_parse_xml_datetime` uses of the C library. -/
structure TimeLibrary where
  /-- `struct tm` -/
  Tm : Type
  /-- `strptime`, which fills a zeroed `struct tm` -/
  strptime : CStr → CStr → Option Tm
  mktime : Tm → Int64
  timezone : Int64
  /-- `HAVE_STRUCT_TM_TM_GMTOFF`; without it, `HAVE_STRUCT_TM___TM_GMTOFF`. -/
  hasTmGmtoff : Bool

namespace AtmosUtil

/-- `AtmosUtil_parse_xml_datetime`: no result where it would write before or
behind its buffer. -/
def parseXmlDatetime (time : TimeLibrary) (value : CStr) : Option Int64 :=
  let buffer := value.take (atmosSimpleHeaderMax - 1)
  if buffer = [] then none
  else (strcpyTo atmosSimpleHeaderMax (buffer.dropLast ++ bytes "GMT")).map fun buffer =>
    (time.strptime buffer (bytes "%FT%T%Z")).elim 0 fun t =>
      if time.hasTmGmtoff then time.mktime t else time.mktime t - time.timezone

section Entries

variable (time : TimeLibrary) (curl : Curl) (utf8 : Bool)

/-- `AtmosUtil_set_system_meta_entry`; a `long` has 64 bits. -/
def setSystemMetaEntry (system : AtmosSystemMetadata) (entryName entryValue : CStr) :
    Option AtmosSystemMetadata :=
  if entryName = atmosSystemMetaAtime then
    (parseXmlDatetime time entryValue).map fun t => { system with atime := t }
  else if entryName = atmosSystemMetaCtime then
    (parseXmlDatetime time entryValue).map fun t => { system with ctime := t }
  else if entryName = atmosSystemMetaGid then
    some { system with gid := .strlcpy (by decide) entryValue }
  else if entryName = atmosSystemMetaItime then
    (parseXmlDatetime time entryValue).map fun t => { system with itime := t }
  else if entryName = atmosSystemMetaMtime then
    (parseXmlDatetime time entryValue).map fun t => { system with mtime := t }
  else if entryName = atmosSystemMetaNlink then
    some { system with nlink := (strtoll entryValue).toInt32 }
  else if entryName = atmosSystemMetaObjectid then
    some { system with objectId := .strlcpy (by decide) entryValue }
  else if entryName = atmosSystemMetaObjname then
    some { system with objname := system.objname.strlcpyUtf8 (by decide) curl utf8 entryValue }
  else if entryName = atmosSystemMetaPolicyname then
    some { system with policyname := .strlcpy (by decide) entryValue }
  else if entryName = atmosSystemMetaSize then
    some { system with size := strtoll entryValue }
  else if entryName = atmosSystemMetaType then
    if entryValue = atmosTypeDirectory then some { system with type := some .directory }
    else if entryValue = atmosTypeRegular then some { system with type := some .regular }
    else some system
  else if entryName = atmosSystemMetaUid then
    some { system with uid := .strlcpy (by decide) entryValue }
  else if entryName = atmosSystemMetaWschecksum then
    some { system with wschecksum := .strlcpy (by decide) entryValue }
  else some system

/-- One round of the loop of `AtmosUtil_parse_system_meta_header`. -/
def parseSystemMetaField (system : AtmosSystemMetadata) (field : CStr) (last : Bool) :
    Option AtmosSystemMetadata :=
  (entryText metaEntrySize field last).bind fun entry =>
    (parseMetaHeaderEntry metaEntryNameSize metaEntryValueSize entry []).bind fun (name, value) =>
      setSystemMetaEntry time curl utf8 system name value

end Entries

/-- `AtmosUtil_parse_system_meta_header` -/
def parseSystemMetaHeader (time : TimeLibrary) (rest : RestClient) (curl : Curl)
    (headers : List CStr) (system : AtmosSystemMetadata) : Option AtmosSystemMetadata :=
  (rest.getHeaderValue headers atmosHeaderMeta).elim (some system) fun value =>
    scanFields comma (parseSystemMetaField time curl (isUtf8 rest headers)) value system

end AtmosUtil

/-! ## The fields -/

/-- A field of the record that a header entry can set. -/
inductive SystemField where
  | atime
  | ctime
  | gid
  | itime
  | mtime
  | nlink
  | objectid
  | objname
  | policyname
  | size
  | type
  | uid
  | wschecksum
  deriving DecidableEq, Repr

namespace SystemField

def all : List SystemField :=
  [atime, ctime, gid, itime, mtime, nlink, objectid, objname, policyname, size, type, uid,
    wschecksum]

/-- The name of the entry that sets a field. -/
def name : SystemField → CStr
  | atime => atmosSystemMetaAtime
  | ctime => atmosSystemMetaCtime
  | gid => atmosSystemMetaGid
  | itime => atmosSystemMetaItime
  | mtime => atmosSystemMetaMtime
  | nlink => atmosSystemMetaNlink
  | objectid => atmosSystemMetaObjectid
  | objname => atmosSystemMetaObjname
  | policyname => atmosSystemMetaPolicyname
  | size => atmosSystemMetaSize
  | type => atmosSystemMetaType
  | uid => atmosSystemMetaUid
  | wschecksum => atmosSystemMetaWschecksum

/-- What a field holds. -/
def Value : SystemField → Type
  | atime | ctime | itime | mtime | size => Int64
  | gid | policyname | uid => FieldText atmosUidMax
  | nlink => Int32
  | objectid => FieldText atmosOidLength
  | objname => FieldText atmosPathMax
  | type => Option AtmosType
  | wschecksum => FieldText atmosChecksumMax

/-- The fields that hold a time. -/
def times : List SystemField := [atime, ctime, itime, mtime]

/-- The value an entry gives to a field, if it is accepted. -/
def parse (time : TimeLibrary) (curl : Curl) (utf8 : Bool) (value : CStr) :
    (f : SystemField) → Option f.Value
  | atime | ctime | itime | mtime => parseXmlDatetime time value
  | gid | policyname | uid => some (FieldText.strlcpy (n := atmosUidMax) (by decide) value)
  | nlink => some (strtoll value).toInt32
  | objectid => some (FieldText.strlcpy (n := atmosOidLength) (by decide) value)
  | objname => (storedText curl utf8 value).map (FieldText.strlcpy (n := atmosPathMax) (by decide))
  | size => some (strtoll value)
  | type =>
      if value = atmosTypeDirectory then some (some .directory)
      else if value = atmosTypeRegular then some (some .regular)
      else none
  | wschecksum => some (FieldText.strlcpy (n := atmosChecksumMax) (by decide) value)

end SystemField

namespace AtmosSystemMetadata

/-- The value of a field. -/
def get (system : AtmosSystemMetadata) : (f : SystemField) → f.Value
  | .atime => system.atime
  | .ctime => system.ctime
  | .gid => system.gid
  | .itime => system.itime
  | .mtime => system.mtime
  | .nlink => system.nlink
  | .objectid => system.objectId
  | .objname => system.objname
  | .policyname => system.policyname
  | .size => system.size
  | .type => system.type
  | .uid => system.uid
  | .wschecksum => system.wschecksum

/-- The record after a field is given a value. -/
def set (system : AtmosSystemMetadata) : (f : SystemField) → f.Value → AtmosSystemMetadata
  | .atime, t => { system with atime := t }
  | .ctime, t => { system with ctime := t }
  | .gid, text => { system with gid := text }
  | .itime, t => { system with itime := t }
  | .mtime, t => { system with mtime := t }
  | .nlink, n => { system with nlink := n }
  | .objectid, text => { system with objectId := text }
  | .objname, text => { system with objname := text }
  | .policyname, text => { system with policyname := text }
  | .size, n => { system with size := n }
  | .type, t => { system with type := t }
  | .uid, text => { system with uid := text }
  | .wschecksum, text => { system with wschecksum := text }

theorem get_set_self (system : AtmosSystemMetadata) (f : SystemField) (v : f.Value) :
    (system.set f v).get f = v := by
  cases f <;> rfl

/-- The other fields are left alone. -/
theorem get_set_of_ne (system : AtmosSystemMetadata) {f g : SystemField} (h : f ≠ g)
    (v : g.Value) : (system.set g v).get f = system.get f := by
  cases g <;> cases f <;> first | rfl | exact absurd rfl h

end AtmosSystemMetadata

/-! ## The table and the chain -/

theorem SystemField.mem_all (f : SystemField) : f ∈ SystemField.all := by
  cases f <;> decide

/-- The table lists the names of the fields. -/
theorem atmosSystemMetaNames_eq : atmosSystemMetaNames = SystemField.all.map SystemField.name := rfl

theorem SystemField.name_injective : Function.Injective SystemField.name := fun f g h =>
  List.inj_on_of_nodup_map (l := SystemField.all) (by decide +kernel) f.mem_all g.mem_all h

/-- The system names are the names of the fields. -/
theorem isSystemMetaName_iff {name : CStr} :
    isSystemMetaName name = true ↔ ∃ f : SystemField, f.name = name := by
  rw [isSystemMetaName, List.contains_iff_mem, atmosSystemMetaNames_eq, List.mem_map]
  constructor
  · rintro ⟨f, -, hname⟩
    exact ⟨f, hname⟩
  · rintro ⟨f, hname⟩
    exact ⟨f, f.mem_all, hname⟩

/-- A time is read if it is not empty and has room for its zone. -/
theorem parseXmlDatetime_isSome_iff (time : TimeLibrary) (value : CStr) :
    (parseXmlDatetime time value).isSome ↔ 0 < value.length ∧ value.length ≤ 252 := by
  have hzone : (bytes "GMT").length = 3 := by decide
  have hsize : atmosSimpleHeaderMax = 255 := rfl
  have htake : (value.take (atmosSimpleHeaderMax - 1)).length = min 254 value.length :=
    List.length_take
  rw [parseXmlDatetime]
  split
  · rename_i hnil
    rw [hnil] at htake
    simp only [List.length_nil] at htake
    simp only [Option.isSome_none, Bool.false_eq_true, false_iff]
    omega
  · rename_i hne
    have hpos := List.length_pos_iff.mpr hne
    rw [Option.isSome_map, strcpyTo, List.length_append, List.length_dropLast, htake, hzone]
    split
    · simp only [Option.isSome_some, true_iff]
      omega
    · simp only [Option.isSome_none, Bool.false_eq_true, false_iff]
      omega

section Entries

variable (time : TimeLibrary) (curl : Curl) (utf8 : Bool)

/-- An entry that can be stored: if it is a time, it has between 1 and 252
bytes. -/
def TimeFits (entry : CStr × CStr) : Prop :=
  (∃ f ∈ SystemField.times, f.name = entry.1) → 0 < entry.2.length ∧ entry.2.length ≤ 252

instance (entry : CStr × CStr) : Decidable (TimeFits entry) :=
  inferInstanceAs (Decidable (_ → _))

/-- Send an entry through the chain. -/
def setSystemEntry (system : AtmosSystemMetadata) (entry : CStr × CStr) :
    Option AtmosSystemMetadata :=
  setSystemMetaEntry time curl utf8 system entry.1 entry.2

/-- The value an entry writes to a field: only entries of its name write to
it. -/
def SystemField.written (f : SystemField) (entry : CStr × CStr) : Option f.Value :=
  if f.name = entry.1 then f.parse time curl utf8 entry.2 else none

theorem SystemField.parse_time {f : SystemField} (value : CStr) (h : f ∈ SystemField.times) :
    (f.parse time curl utf8 value).isSome = (parseXmlDatetime time value).isSome := by
  cases f with
  | atime | ctime | itime | mtime => rfl
  | _ => exact absurd h (by decide)

/-- An entry with the name of a field sets this field, if it is accepted. -/
theorem setSystemMetaEntry_name (system : AtmosSystemMetadata) (g : SystemField) (value : CStr) :
    setSystemMetaEntry time curl utf8 system g.name value =
      if g ∈ SystemField.times then (g.parse time curl utf8 value).map (system.set g)
      else some ((g.parse time curl utf8 value).elim system (system.set g)) := by
  cases g with
  | objname =>
      have hset : setSystemMetaEntry time curl utf8 system SystemField.objname.name value =
          some { system with
            objname := system.objname.strlcpyUtf8 (by decide) curl utf8 value } := rfl
      rw [hset, FieldText.strlcpyUtf8_eq, if_neg (by decide), SystemField.parse]
      cases storedText curl utf8 value <;> rfl
  | type =>
      have hset : setSystemMetaEntry time curl utf8 system SystemField.type.name value =
          if value = atmosTypeDirectory then some { system with type := some .directory }
          else if value = atmosTypeRegular then some { system with type := some .regular }
          else some system := rfl
      have htimes : SystemField.type ∉ SystemField.times := by decide
      rw [hset, if_neg htimes]
      by_cases hdirectory : value = atmosTypeDirectory
      · simp only [SystemField.parse, if_pos hdirectory]
        rfl
      · by_cases hregular : value = atmosTypeRegular
        · simp only [SystemField.parse, if_neg hdirectory, if_pos hregular]
          rfl
        · simp only [SystemField.parse, if_neg hdirectory, if_neg hregular]
          rfl
  | _ => rfl

/-- An entry with another name changes nothing. -/
theorem setSystemMetaEntry_user (system : AtmosSystemMetadata) {name : CStr}
    (h : ∀ f : SystemField, f.name ≠ name) (value : CStr) :
    setSystemMetaEntry time curl utf8 system name value = some system := by
  have hne : ∀ f : SystemField, name ≠ f.name := fun f => (h f).symm
  rw [setSystemMetaEntry]
  refine (if_neg (hne .atime)).trans ?_
  refine (if_neg (hne .ctime)).trans ?_
  refine (if_neg (hne .gid)).trans ?_
  refine (if_neg (hne .itime)).trans ?_
  refine (if_neg (hne .mtime)).trans ?_
  refine (if_neg (hne .nlink)).trans ?_
  refine (if_neg (hne .objectid)).trans ?_
  refine (if_neg (hne .objname)).trans ?_
  refine (if_neg (hne .policyname)).trans ?_
  refine (if_neg (hne .size)).trans ?_
  refine (if_neg (hne .type)).trans ?_
  refine (if_neg (hne .uid)).trans ?_
  exact if_neg (hne .wschecksum)

variable {time curl utf8}

/-- **One entry** sets the field of its name and no other. -/
theorem setSystemEntry_get {system system' : AtmosSystemMetadata} {entry : CStr × CStr}
    (h : setSystemEntry time curl utf8 system entry = some system') (f : SystemField) :
    system'.get f = (f.written time curl utf8 entry).getD (system.get f) := by
  obtain ⟨name, value⟩ := entry
  rw [setSystemEntry] at h
  by_cases hname : ∃ g : SystemField, g.name = name
  · obtain ⟨g, rfl⟩ := hname
    have hset : system' = (g.parse time curl utf8 value).elim system (system.set g) := by
      rw [setSystemMetaEntry_name] at h
      split at h
      · obtain ⟨v, hv, rfl⟩ := Option.map_eq_some_iff.mp h
        rw [hv, Option.elim_some]
      · exact (Option.some.inj h).symm
    by_cases hfield : f = g
    · subst hfield
      rw [hset, SystemField.written, if_pos rfl]
      cases f.parse time curl utf8 value with
      | none => rfl
      | some v => exact system.get_set_self f v
    · rw [hset, SystemField.written, if_neg fun heq => hfield (SystemField.name_injective heq)]
      cases g.parse time curl utf8 value with
      | none => rfl
      | some v => exact system.get_set_of_ne hfield v
  · have hne : ∀ g : SystemField, g.name ≠ name := fun g heq => hname ⟨g, heq⟩
    rw [setSystemMetaEntry_user time curl utf8 system hne] at h
    rw [← Option.some.inj h, SystemField.written, if_neg (hne f)]
    rfl

/-- An entry is stored if its time fits. -/
theorem setSystemEntry_isSome_iff (entry : CStr × CStr) (system : AtmosSystemMetadata) :
    (setSystemEntry time curl utf8 system entry).isSome ↔ TimeFits entry := by
  obtain ⟨name, value⟩ := entry
  rw [setSystemEntry]
  by_cases hname : ∃ g : SystemField, g.name = name
  · obtain ⟨g, rfl⟩ := hname
    rw [setSystemMetaEntry_name]
    split
    · rename_i htime
      rw [Option.isSome_map, SystemField.parse_time time curl utf8 value htime,
        parseXmlDatetime_isSome_iff]
      exact ⟨fun hfits _ => hfits, fun hfits => hfits ⟨g, htime, rfl⟩⟩
    · rename_i htime
      refine ⟨fun _ ⟨f, hf, heq⟩ => absurd ?_ htime, fun _ => rfl⟩
      rwa [← SystemField.name_injective heq]
  · have hne : ∀ g : SystemField, g.name ≠ name := fun g heq => hname ⟨g, heq⟩
    rw [setSystemMetaEntry_user time curl utf8 system hne]
    exact ⟨fun _ ⟨f, _, heq⟩ => absurd heq (hne f), fun _ => rfl⟩

theorem setSystemEntry_isSome {entry : CStr × CStr} (h : TimeFits entry)
    (system : AtmosSystemMetadata) :
    (setSystemEntry time curl utf8 system entry).isSome :=
  (setSystemEntry_isSome_iff entry system).mpr h

end Entries

/-! ## The header -/

/-- The entries of a header value. -/
def headerEntries (value : CStr) : List (CStr × CStr) :=
  (value.splitOn comma).map fun field => (entryName field, entryValue field)

/-- The entries that do not have a name of the table. -/
def userEntries (value : CStr) : List (CStr × CStr) :=
  (headerEntries value).filter fun entry => entry.1 ∉ atmosSystemMetaNames

theorem mem_userEntries {value : CStr} {entry : CStr × CStr} :
    entry ∈ userEntries value ↔
      entry ∈ headerEntries value ∧ ∀ f : SystemField, f.name ≠ entry.1 := by
  have hsystem : entry.1 ∉ atmosSystemMetaNames ↔ ∀ f : SystemField, f.name ≠ entry.1 := by
    rw [← List.contains_iff_mem, ← isSystemMetaName, isSystemMetaName_iff]
    exact not_exists
  rw [userEntries, List.mem_filter, decide_eq_true_eq, hsystem]

/-- An entry is one of the user, or sets a field. -/
theorem entry_cases {value : CStr} {entry : CStr × CStr} (h : entry ∈ headerEntries value) :
    (entry ∈ userEntries value ∧ ∀ f : SystemField, f.name ≠ entry.1) ∨
      (entry ∉ userEntries value ∧ ∃! f : SystemField, f.name = entry.1) := by
  by_cases hname : ∃ f : SystemField, f.name = entry.1
  · obtain ⟨f, hf⟩ := hname
    refine Or.inr ⟨fun hmem => (mem_userEntries.mp hmem).2 f hf, f, hf, ?_⟩
    intro g hg
    exact SystemField.name_injective (hg.trans hf.symm)
  · have hne : ∀ f : SystemField, f.name ≠ entry.1 := fun f hf => hname ⟨f, hf⟩
    exact Or.inl ⟨mem_userEntries.mpr ⟨h, hne⟩, hne⟩

section Response

variable (time : TimeLibrary) (rest : RestClient) (curl : Curl) {headers : List CStr}
  {value : CStr}

/-- **The reader of the user's metadata** stores the user's entries. -/
theorem parseUserMetaHeaders_eq (hvalue : rest.getHeaderValue headers atmosHeaderMeta = some value)
    (hfits : AllFields MetaFieldFits (value.splitOn comma)) {slots : List MetadataSlot}
    (hroom : (userEntries value).length ≤ slots.length) (listable : MetadataArray) :
    parseUserMetaHeaders rest curl headers (slots, 0) listable =
      (parseMetaHeader rest curl headers atmosHeaderListableMeta listable).map fun listable =>
        ((List.zipWith (storeEntry curl (isUtf8 rest headers)) (userEntries value) slots ++
          slots.drop (userEntries value).length, (userEntries value).length), listable) := by
  have hfields : metaFields rest headers atmosHeaderMeta = value.splitOn comma := by
    rw [metaFields, hvalue, Option.elim_some]
  have hitems : metaItems rest headers atmosHeaderMeta = userEntries value := by
    rw [metaItems, hfields, flatMap_metaEntries]
    rfl
  have hparse := (parseMetaHeader_eq_some rest curl headers atmosHeaderMeta slots _).mpr
    ⟨⟨hfields ▸ hfits, hitems ▸ hroom⟩, rfl⟩
  rw [hitems] at hparse
  rw [parseUserMetaHeaders, hparse]
  cases parseMetaHeader rest curl headers atmosHeaderListableMeta listable <;> rfl

/-- What a piece of the header gives: the entry in it. -/
def systemPiece (field : CStr) (last : Bool) : Option (List (CStr × CStr)) :=
  (readEntry metaEntrySize metaEntryNameSize metaEntryValueSize field last).map fun entry => [entry]

theorem systemPiece_eq_some (field : CStr) (last : Bool) (entries : List (CStr × CStr)) :
    systemPiece field last = some entries ↔
      MetaFieldFits field last ∧ [(entryName field, entryValue field)] = entries := by
  rw [systemPiece, Option.map_eq_some_iff]
  constructor
  · rintro ⟨entry, hentry, hentries⟩
    obtain ⟨hfits, rfl⟩ := (readEntry_eq_some (by decide)).mp hentry
    exact ⟨hfits, hentries⟩
  · rintro ⟨hfits, hentries⟩
    exact ⟨_, (readEntry_eq_some (by decide)).mpr ⟨hfits, rfl⟩, hentries⟩

/-- One round reads a piece and sets a field. -/
theorem parseSystemMetaField_eq (utf8 : Bool) (system : AtmosSystemMetadata) (field : CStr)
    (last : Bool) :
    parseSystemMetaField time curl utf8 system field last =
      (systemPiece field last).bind fun entries =>
        entries.foldlM (setSystemEntry time curl utf8) system := by
  rw [parseSystemMetaField, systemPiece, readEntry]
  cases entryText metaEntrySize field last with
  | none => rfl
  | some text =>
      simp only [Option.bind_some]
      cases parseMetaHeaderEntry metaEntryNameSize metaEntryValueSize text [] with
      | none => rfl
      | some entry =>
          simp only [Option.bind_some, Option.map_some, List.foldlM_cons]
          have hset : setSystemEntry time curl utf8 system entry =
              setSystemMetaEntry time curl utf8 system entry.1 entry.2 := rfl
          rw [hset]
          cases setSystemMetaEntry time curl utf8 system entry.1 entry.2 <;> rfl

/-- The pieces are read first, and then their entries stored. -/
theorem parseSystemMetaHeader_eq_bind
    (hvalue : rest.getHeaderValue headers atmosHeaderMeta = some value)
    (system : AtmosSystemMetadata) :
    parseSystemMetaHeader time rest curl headers system =
      (mapFields systemPiece (value.splitOn comma)).bind fun entries =>
        entries.flatten.foldlM (setSystemEntry time curl (isUtf8 rest headers)) system := by
  rw [parseSystemMetaHeader, hvalue, Option.elim_some, scanFields_eq_foldFields]
  exact foldFields_eq_mapFields (parseSystemMetaField_eq time curl _) _ _

/-- **The reader of the system's metadata** sends every entry through the
chain. -/
theorem parseSystemMetaHeader_eq
    (hvalue : rest.getHeaderValue headers atmosHeaderMeta = some value)
    (hfits : AllFields MetaFieldFits (value.splitOn comma)) (system : AtmosSystemMetadata) :
    parseSystemMetaHeader time rest curl headers system =
      (headerEntries value).foldlM (setSystemEntry time curl (isUtf8 rest headers)) system := by
  have hread : mapFields systemPiece (value.splitOn comma) =
      some ((value.splitOn comma).map fun field => [(entryName field, entryValue field)]) :=
    (mapFields_eq_some_iff systemPiece_eq_some).mpr ⟨hfits, rfl⟩
  rw [parseSystemMetaHeader_eq_bind time rest curl hvalue, hread, Option.bind_some,
    ← List.flatMap_def, ← List.map_eq_flatMap]
  rfl

/-- It gets to the end if every piece fits the scratch buffers and every time
has a length that can be parsed. -/
theorem parseSystemMetaHeader_isSome_iff
    (hvalue : rest.getHeaderValue headers atmosHeaderMeta = some value)
    (system : AtmosSystemMetadata) :
    (parseSystemMetaHeader time rest curl headers system).isSome ↔
      AllFields MetaFieldFits (value.splitOn comma) ∧
        ∀ entry ∈ headerEntries value, TimeFits entry := by
  by_cases hfits : AllFields MetaFieldFits (value.splitOn comma)
  · rw [parseSystemMetaHeader_eq time rest curl hvalue hfits,
      LastWrite.foldlM_isSome_iff fun system entry => setSystemEntry_isSome_iff entry system]
    exact (and_iff_right hfits).symm
  · have hread : mapFields systemPiece (value.splitOn comma) = none := by
      rw [Option.eq_none_iff_forall_ne_some]
      intro entries hentries
      exact hfits ((mapFields_eq_some_iff systemPiece_eq_some).mp hentries).1
    rw [parseSystemMetaHeader_eq_bind time rest curl hvalue, hread]
    simp [hfits]

/-- **The two readers share the header.**  Every entry is one of the user or
sets one field; the first reader stores exactly the user's entries, in order;
the second leaves in every field what the last accepted entry of its name
wrote, and else what was there. -/
theorem metadata_partition
    (hvalue : rest.getHeaderValue headers atmosHeaderMeta = some value)
    (hfits : AllFields MetaFieldFits (value.splitOn comma))
    (htimes : ∀ entry ∈ headerEntries value, TimeFits entry) {slots : List MetadataSlot}
    (hroom : (userEntries value).length ≤ slots.length) (listable : MetadataArray)
    (system : AtmosSystemMetadata) :
    (∀ entry ∈ headerEntries value,
      (entry ∈ userEntries value ∧ ∀ f : SystemField, f.name ≠ entry.1) ∨
        (entry ∉ userEntries value ∧ ∃! f : SystemField, f.name = entry.1)) ∧
    (∃ array, parseUserMetaHeaders rest curl headers (slots, 0) listable =
        (parseMetaHeader rest curl headers atmosHeaderListableMeta listable).map (array, ·) ∧
      array = (List.zipWith (storeEntry curl (isUtf8 rest headers)) (userEntries value) slots ++
        slots.drop (userEntries value).length, (userEntries value).length) ∧
      ((∀ entry ∈ userEntries value, EntryFits curl (isUtf8 rest headers) entry) →
        HoldsItems (HoldsEntry curl (isUtf8 rest headers)) (userEntries value) slots array)) ∧
    ∃ system', parseSystemMetaHeader time rest curl headers system = some system' ∧
      ∀ f : SystemField, system'.get f =
        LastWrite.last (f.written time curl (isUtf8 rest headers)) (headerEntries value)
          (system.get f) := by
  refine ⟨fun entry => entry_cases, ⟨_, parseUserMetaHeaders_eq rest curl hvalue hfits hroom
    listable, rfl, ?_⟩, ?_⟩
  · intro hentries
    exact (holdsItems_zipWith _ hroom fun entry hentry slot =>
      ⟨fun _ => hentries entry hentry, fun h => holdsEntry_of_fits h slot⟩).mpr hentries
  · have hrun := parseSystemMetaHeader_eq time rest curl hvalue hfits system
    have hsome := @LastWrite.foldlM_isSome _ _ (setSystemEntry time curl (isUtf8 rest headers)) _
      (fun entry hentry => setSystemEntry_isSome (htimes entry hentry)) system
    obtain ⟨system', hsystem'⟩ := Option.isSome_iff_exists.mp hsome
    refine ⟨system', hrun.trans hsystem', ?_⟩
    intro f
    have hview : ∀ {st st' : AtmosSystemMetadata} {entry : CStr × CStr},
        setSystemEntry time curl (isUtf8 rest headers) st entry = some st' →
          st'.get f = (f.written time curl (isUtf8 rest headers) entry).getD (st.get f) :=
      fun h => setSystemEntry_get h f
    exact @LastWrite.view_foldlM _ _ _ _ (·.get f) _ hview _ _ _ hsystem'

end Response

/-- The C library of a machine in Greenwich, for one time. -/
def TimeLibrary.greenwich : TimeLibrary where
  Tm := Int64
  strptime s format :=
    if s = bytes "2011-02-25T16:05:11GMT" ∧ format = bytes "%FT%T%Z" then some 1298649911 else none
  mktime t := t
  timezone := 0
  hasTmGmtoff := false

/-- System metadata nobody has written to. -/
def zeroedSystemMetadata : AtmosSystemMetadata where
  objectId := .strlcpy (by decide) []
  objname := .strlcpy (by decide) []
  atime := 0
  ctime := 0
  itime := 0
  mtime := 0
  size := 0
  nlink := 0
  type := none
  uid := .strlcpy (by decide) []
  gid := .strlcpy (by decide) []
  policyname := .strlcpy (by decide) []
  wschecksum := .strlcpy (by decide) []

/-- A header with metadata of both kinds. -/
def mixedMetadata : CStr :=
  bytes "mtime=2011-02-25T16:05:11Z, farbe=rot, size=3, type=regular, type=link"

theorem metadata_partition_mixed :
    ∃ system', parseSystemMetaHeader .greenwich .plain .standard
        [headerLine atmosHeaderMeta mixedMetadata] zeroedSystemMetadata = some system' ∧
      system'.mtime = 1298649911 ∧ system'.size = 3 ∧ system'.type = some .regular := by
  have hvalue : RestClient.plain.getHeaderValue [headerLine atmosHeaderMeta mixedMetadata]
      atmosHeaderMeta = some mixedMetadata := by decide +kernel
  have hfits : AllFields MetaFieldFits (mixedMetadata.splitOn comma) := by decide +kernel
  have htimes : ∀ entry ∈ headerEntries mixedMetadata, TimeFits entry := by decide +kernel
  have hroom : (userEntries mixedMetadata).length ≤
      (List.replicate 127 zeroedMetadata).length := by decide +kernel
  obtain ⟨-, -, system', hsystem', hget⟩ := metadata_partition .greenwich .plain .standard hvalue
    hfits htimes hroom ([], 0) zeroedSystemMetadata
  exact ⟨system', hsystem', hget .mtime, hget .size, hget .type⟩

end Atmos
