import Atmos.Constants
import Atmos.FixedMemory
import Atmos.PercentEncoding
import Atmos.RestClient

/-!
# Metadata headers

The writer `AtmosUtil_set_metadata_header` joins `name=value` entries with
commas; the reader `AtmosUtil_parse_meta_header_string` walks over the commas
again and stores the entries in the caller's array.  Both are translated here
with their buffers: a result `none` means a write past the end of one.

* `escapedText_eq_self_iff` — which texts are encoded whole where their length
  is handed over as an `int`;
* `readEntry_eq_some` — what the readers make of one piece of a header value,
  and when it fits their buffers;
* `metadataLoop_eq` — the writer joins the texts of the entries;
* `parseMetaHeaderString_eq` — the reader takes the pieces between the commas
  apart and then stores what it found, `storeEntry` by `storeEntry`.
-/

namespace Atmos

open ByteText FixedMemory

/-- The two functions of libcurl the library encodes text with. -/
structure Curl where
  /-- `curl_easy_escape` of a whole string -/
  easyEscape : CStr → Option CStr
  /-- `curl_easy_unescape` -/
  easyUnescape : CStr → Option (List UInt8)

/-- The documented behaviour: every byte outside `A-Z a-z 0-9 - . _ ~` is
percent-encoded, and unescaping undoes it. -/
structure Curl.Documented (curl : Curl) : Prop where
  escape : ∀ s, curl.easyEscape s = some (PercentEncoding.encode s)
  unescape : ∀ s, curl.easyUnescape (PercentEncoding.encode s) = some s

/-- libcurl without allocation failures. -/
def Curl.standard : Curl where
  easyEscape s := some (PercentEncoding.encode s)
  easyUnescape s := some (PercentEncoding.decode s)

theorem Curl.standard_documented : Curl.standard.Documented where
  escape _ := rfl
  unescape s := congrArg some (PercentEncoding.decode_encode s)

/-! ## Lengths that are handed over -/

/-- What `curl_easy_escape` reads of a string: with length 0 the whole string. -/
def escapedPart (str : CStr) (length : Int32) : CStr :=
  if length = 0 then str else str.take length.toNatClampNeg

/-- `curl_easy_escape(curl, str, (int)strlen(str))`.  A negative length is
refused. -/
def Curl.escapeString (curl : Curl) (str : CStr) : Option CStr :=
  let length := Int32.ofNat str.length
  if length.toInt < 0 then none else curl.easyEscape (escapedPart str length)

/-- What is encoded of a string whose length becomes an `int`. -/
def escapedText (str : CStr) : CStr :=
  let length := Int32.ofNat str.length
  if length.toInt < 0 then [] else escapedPart str length

/-- The `int` is the length of the string, or 0, which stands for it. -/
def Uncut (str : CStr) : Prop :=
  str.length < 2147483648 ∨ str.length % 4294967296 = 0

theorem toInt_ofNat_le (n : Nat) : (Int32.ofNat n).toInt ≤ n := by
  have hsize : Int32.size = 4294967296 := rfl
  rw [Int32.toInt_ofNat', Int.bmod_def, hsize]
  split <;> omega

theorem int32_eq_zero_iff {length : Int32} : length = 0 ↔ length.toInt = 0 := by
  rw [← Int32.toInt_inj]
  rfl

theorem escapedPart_prefix (str : CStr) (length : Int32) : escapedPart str length <+: str := by
  unfold escapedPart
  split
  · exact List.prefix_rfl
  · exact List.take_prefix _ str

/-- The whole text is encoded where its length is read by `strlen`, or is not
larger than the one given. -/
theorem escapedPart_eq_self_iff {str : CStr} {length : Int32} :
    escapedPart str length = str ↔ length = 0 ∨ str.length ≤ length.toNatClampNeg := by
  unfold escapedPart
  by_cases hzero : length = 0
  · simp [hzero]
  · rw [if_neg hzero, or_iff_right hzero]
    refine ⟨fun htake => ?_, List.take_of_length_le⟩
    have hlength := congrArg List.length htake
    rw [List.length_take] at hlength
    omega

theorem escapedText_initial (str : CStr) : escapedText str <+: str := by
  unfold escapedText
  dsimp only
  split
  · exact List.nil_prefix
  · exact escapedPart_prefix str _

/-- **A text is encoded whole** exactly when its length is not cut. -/
theorem escapedText_eq_self_iff {str : CStr} : escapedText str = str ↔ Uncut str := by
  have hsize : Int32.size = 4294967296 := rfl
  have hint : (Int32.ofNat str.length).toInt = (str.length : Int).bmod 4294967296 :=
    hsize ▸ Int32.toInt_ofNat' ..
  have hclamp : (Int32.ofNat str.length).toNatClampNeg =
      (Int32.ofNat str.length).toInt.toNat := rfl
  unfold escapedText Uncut
  dsimp only
  rw [Int.bmod_def] at hint
  split
  · have hlength : [] = str ↔ str.length = 0 := by
      rw [eq_comm, List.length_eq_zero_iff]
    rw [hlength]
    split at hint <;> omega
  · rw [escapedPart_eq_self_iff, int32_eq_zero_iff, hclamp]
    split at hint <;> omega

theorem escapedText_of_uncut {str : CStr} (h : Uncut str) : escapedText str = str :=
  escapedText_eq_self_iff.mpr h

theorem uncut_of_length_lt {str : CStr} (h : str.length < 2147483648) : Uncut str := .inl h

/-- **The text that is encoded.** -/
theorem Curl.Documented.escapeString_getD {curl : Curl} (hcurl : curl.Documented) (str : CStr) :
    (curl.escapeString str).getD [] = PercentEncoding.encode (escapedText str) := by
  unfold Curl.escapeString escapedText
  dsimp only
  split
  · rfl
  · rw [hcurl.escape, Option.getD_some]

/-- `AtmosMetadata`, as the strings in its two fields. -/
structure AtmosMetadata where
  name : CStr
  value : CStr
  deriving DecidableEq, Repr

/-- The strings fit the two fields. -/
structure AtmosMetadata.FitsFields (entry : AtmosMetadata) : Prop where
  name_nul : 0 ∉ entry.name
  value_nul : 0 ∉ entry.value
  name_length : entry.name.length < atmosMetaNameMax
  value_length : entry.value.length < atmosMetaValueMax

/-- `AtmosMetadata`, as memory: `name` and behind it `value`. -/
abbrev MetadataSlot := Block (atmosMetaNameMax + atmosMetaValueMax)

/-- A metadata entry nobody has written to. -/
def zeroedMetadata : MetadataSlot :=
  ⟨List.replicate (atmosMetaNameMax + atmosMetaValueMax) 0, List.length_replicate⟩

/-- The field `name` of an entry. -/
def MetadataSlot.nameField (slot : MetadataSlot) : List UInt8 := slot.mem.take atmosMetaNameMax

/-- The field `value` of an entry. -/
def MetadataSlot.valueField (slot : MetadataSlot) : List UInt8 := slot.mem.drop atmosMetaNameMax

/-- The strings stored in a slot. -/
def MetadataSlot.view (slot : MetadataSlot) : Option AtmosMetadata := do
  let name ← slot.cstrAt 0
  let value ← slot.cstrAt atmosMetaNameMax
  some { name, value }

/-- Copy a name and a value to the fields of an entry, both by `strncpy`. -/
def setEntry (name value : CStr) (slot : MetadataSlot) : Option MetadataSlot :=
  (slot.write 0 (strncpy name atmosMetaNameMax)).bind fun slot =>
    slot.write atmosMetaNameMax (strncpy value atmosMetaValueMax)

namespace AtmosUtil

/-! ## Writing -/

/-- `AtmosUtil_meta_char_check`: true for a string that needs utf8 mode. -/
def metaCharCheck (str : CStr) : Bool :=
  str.any fun b => b == comma || b == newline || b == equals || b < 32 || b &&& 0x80 != 0

/-- The text of one entry: `name=value`, percent-encoded in utf8 mode. -/
def metadataEntry (curl : Curl) (utf8 : Bool) (entry : AtmosMetadata) : Option CStr :=
  if utf8 then do
    let name ← curl.easyEscape entry.name
    let value ← curl.easyEscape entry.value
    some (name ++ [equals] ++ value)
  else some (entry.name ++ [equals] ++ entry.value)

/-- The loop of `AtmosUtil_set_metadata_header` from index `i` on. -/
def metadataLoop (curl : Curl) (utf8 : Bool) :
    Nat → List AtmosMetadata → CStr → Option CStr
  | _, [], metaHeader => some metaHeader
  | i, entry :: rest, metaHeader =>
      if utf8 = false ∧ (metaCharCheck entry.name ∨ metaCharCheck entry.value) then
        metadataLoop curl utf8 (i + 1) rest metaHeader
      else do
        let metaHeader := if 0 < i then metaHeader ++ [comma] else metaHeader
        let text ← metadataEntry curl utf8 entry
        metadataLoop curl utf8 (i + 1) rest (metaHeader ++ text)

/-- The name of the header for one kind of metadata. -/
def metadataHeaderName (listable : Bool) : CStr :=
  if listable then atmosHeaderListableMeta else atmosHeaderMeta

/-- `AtmosUtil_set_metadata_header` -/
def setMetadataHeader (curl : Curl) (entries : List AtmosMetadata) (listable utf8 : Bool)
    (request : RestRequest) : Option RestRequest :=
  if entries.length < 1 then some request
  else do
    let metaHeader := metadataHeaderName listable ++ bytes ": "
    let metaHeader ← metadataLoop curl utf8 0 entries metaHeader
    some (request.addHeader metaHeader)

/-! ## Reading -/

/-- `AtmosUtil_is_system_meta_name` -/
def isSystemMetaName (name : CStr) : Bool := atmosSystemMetaNames.contains name

/-- `AtmosUtil_parse_meta_header_entry`, into buffers of the given sizes: the
name buffer is written in any case, the value buffer keeps its string when the
entry has no delimiter. -/
def parseMetaHeaderEntry (nameSize valueSize : Nat) (entry value : CStr) :
    Option (CStr × CStr) := do
  let entry := entry.dropWhile (· == space)
  match cut equals entry with
  | (_, none) =>
      let name ← strcpyTo nameSize entry
      some (name, value)
  | (field, some valpos) =>
      let name ← strcpyTo nameSize field
      let value ← strcpyTo valueSize (valpos.dropWhile (· == space))
      some (name, value)

/-- `AtmosUtil_strlcpy_utf8`, into a field that starts at an offset of a
block. -/
def strlcpyUtf8 {n : Nat} (curl : Curl) (slot : Block n) (off : Nat) (src : CStr)
    (destsz : Nat) (utf8 : Bool) : Option (Block n) :=
  if utf8 then
    match curl.easyUnescape src with
    | none => some slot
    | some decoded => slot.write off (strlcpy (decoded.takeWhile (· != 0)) destsz)
  else slot.write off (strlcpy src destsz)

/-- `sizeof(entry)` -/
abbrev metaEntrySize : Nat := atmosMetaNameMax * 3 + 1 + atmosMetaValueMax * 3

/-- `sizeof(entry_name)` -/
abbrev metaEntryNameSize : Nat := atmosMetaNameMax * 3

/-- `sizeof(entry_value)` -/
abbrev metaEntryValueSize : Nat := atmosMetaValueMax * 3

/-- The caller's array and `*meta_count`. -/
abbrev MetadataArray := List MetadataSlot × Nat

/-- Store an entry behind the last one; no result past the end of the array. -/
def storeMetadata (curl : Curl) (utf8 : Bool) (array : MetadataArray) (name value : CStr) :
    Option MetadataArray := do
  let (slots, count) := array
  let slot ← slots[count]?
  let slot ← strlcpyUtf8 curl slot 0 name atmosMetaValueMax utf8
  let slot ← strlcpyUtf8 curl slot atmosMetaNameMax value atmosMetaValueMax utf8
  some (slots.set count slot, count + 1)

/-- The text the loops parse: all but the last piece of a header value are
copied to the buffer `entry` first. -/
def entryText (entrySize : Nat) (field : CStr) (last : Bool) : Option CStr :=
  if last then some field else strcpyTo entrySize field

/-- One round of the loop of `AtmosUtil_parse_meta_header_string`. -/
def parseMetaField (curl : Curl) (utf8 : Bool) (array : MetadataArray) (field : CStr)
    (last : Bool) : Option MetadataArray := do
  let entry ← entryText metaEntrySize field last
  let (name, value) ← parseMetaHeaderEntry metaEntryNameSize metaEntryValueSize entry []
  if isSystemMetaName name then some array
  else storeMetadata curl utf8 array name value

/-- `AtmosUtil_parse_meta_header_string` -/
def parseMetaHeaderString (curl : Curl) (utf8 : Bool) (value : CStr)
    (array : MetadataArray) : Option MetadataArray :=
  scanFields comma (parseMetaField curl utf8) value array

/-- The flag `utf8` of a response. -/
def isUtf8 (rest : RestClient) (headers : List CStr) : Bool :=
  rest.getHeaderValue headers atmosHeaderUtf8 = some (bytes "true")

/-- Parse one of the two headers if the response has it. -/
def parseMetaHeader (rest : RestClient) (curl : Curl) (headers : List CStr) (name : CStr)
    (array : MetadataArray) : Option MetadataArray :=
  match rest.getHeaderValue headers name with
  | some value => parseMetaHeaderString curl (isUtf8 rest headers) value array
  | none => some array

/-- `AtmosUtil_parse_user_meta_headers`, given the header lines of the
response. -/
def parseUserMetaHeaders (rest : RestClient) (curl : Curl) (headers : List CStr)
    (metadata listableMeta : MetadataArray) : Option (MetadataArray × MetadataArray) := do
  let metadata ← parseMetaHeader rest curl headers atmosHeaderMeta metadata
  let listableMeta ← parseMetaHeader rest curl headers atmosHeaderListableMeta listableMeta
  some (metadata, listableMeta)

end AtmosUtil

/-! ## What the functions compute -/

open Block in
theorem setEntry_eq (name value : CStr) (slot : MetadataSlot) :
    ∃ slot', setEntry name value slot = some slot' ∧
      slot'.nameField = strncpy name atmosMetaNameMax ∧
      slot'.valueField = strncpy value atmosMetaValueMax := by
  have hname : (strncpy name atmosMetaNameMax).length = atmosMetaNameMax := length_strncpy ..
  have hvalue : (strncpy value atmosMetaValueMax).length = atmosMetaValueMax := length_strncpy ..
  have hfits : 0 + (strncpy name atmosMetaNameMax).length ≤
      atmosMetaNameMax + atmosMetaValueMax := by omega
  have hfits' : atmosMetaNameMax + (strncpy value atmosMetaValueMax).length ≤
      atmosMetaNameMax + atmosMetaValueMax := by omega
  refine ⟨(slot.put 0 _ hfits).put atmosMetaNameMax _ hfits', ?_, ?_, ?_⟩
  · rw [setEntry, write_of_fits _ hfits, Option.bind_some, write_of_fits _ hfits']
  · rw [MetadataSlot.nameField, put_take, put_zero_take _ _ hname.le, overwrite_of_length_le]
    rw [hname]
    exact List.length_take_le ..
  · rw [MetadataSlot.valueField, put_drop, put_zero_drop _ _ hname.le, overwrite_of_length_le]
    rw [hvalue, List.length_drop, slot.size, Nat.add_sub_cancel_left]

/-- The copy of an entry that fits shows it. -/
theorem setEntry_view {entry : AtmosMetadata} (h : entry.FitsFields) (slot : MetadataSlot) :
    ∃ slot', setEntry entry.name entry.value slot = some slot' ∧ slot'.view = some entry := by
  obtain ⟨slot', hset, hname, hvalue⟩ := setEntry_eq entry.name entry.value slot
  have hcstr : slot'.cstrAt 0 = some entry.name := by
    rw [Block.cstrAt, List.drop_zero, ← List.take_append_drop atmosMetaNameMax slot'.mem]
    exact (congrArg (fun field => readCStr (field ++ _)) hname).trans
      (readCStr_strncpy_append h.name_nul h.name_length _)
  have hcstr' : slot'.cstrAt atmosMetaNameMax = some entry.value := by
    have hread := readCStr_strncpy_append h.value_nul h.value_length []
    rw [List.append_nil, ← hvalue] at hread
    exact hread
  refine ⟨slot', hset, ?_⟩
  rw [MetadataSlot.view, hcstr, hcstr']
  rfl

/-- A text that does not start with a space keeps all its bytes. -/
theorem dropWhile_space {s : CStr} (h : s.head? ≠ some space) :
    s.dropWhile (· == space) = s := by
  cases s with
  | nil => rfl
  | cons b s =>
      have hb : b ≠ space := fun heq => h (by simp [heq])
      exact List.dropWhile_cons_of_neg (by simpa using hb)

/-- The name in a piece of a header value: what stands before the first equals
sign, leading spaces stripped. -/
def entryName (field : CStr) : CStr := (cut equals (field.dropWhile (· == space))).1

/-- The value in a piece of a header value, empty if there is no equals sign. -/
def entryValue (field : CStr) : CStr :=
  ((cut equals (field.dropWhile (· == space))).2.getD []).dropWhile (· == space)

@[simp] theorem entryName_space (field : CStr) :
    entryName (space :: field) = entryName field := by
  simp [entryName]

@[simp] theorem entryValue_space (field : CStr) :
    entryValue (space :: field) = entryValue field := by
  simp [entryValue]

/-- A name is part of its piece. -/
theorem entryName_subset (field : CStr) : entryName field ⊆ field := by
  have hstripped := List.dropWhile_subset (· == space) (l := field)
  rw [entryName]
  rcases cut_spec equals (field.dropWhile (· == space)) with
    ⟨-, hcut⟩ | ⟨name, value, -, heq, hcut⟩
  · rw [hcut]
    exact hstripped
  · rw [hcut]
    exact List.Subset.trans (List.subset_append_left name _) (heq ▸ hstripped)

/-- A text `name=value` starts like its name. -/
theorem head_entry {name : CStr} (hname : name.head? ≠ some space) (value : CStr) :
    (name ++ equals :: value).head? ≠ some space := by
  cases name with
  | nil =>
      intro h
      exact absurd (Option.some.inj h) (by decide)
  | cons b s => exact hname

private theorem cut_text {name : CStr} (hequals : equals ∉ name) (value : CStr) :
    cut equals ((name ++ equals :: value).dropWhile (· == space)) =
      (name.dropWhile (· == space), some value) := by
  have hstripped : equals ∉ name.dropWhile (· == space) :=
    fun hmem => hequals (List.dropWhile_subset _ hmem)
  rw [← cut_append_sep hstripped, List.dropWhile_append]
  split
  · rename_i hnil
    rw [List.isEmpty_iff.mp hnil]
    rfl
  · rfl

/-- A text `name=value` has this name and value, without leading spaces. -/
theorem entryName_text {name : CStr} (hequals : equals ∉ name) (value : CStr) :
    entryName (name ++ equals :: value) = name.dropWhile (· == space) := by
  rw [entryName, cut_text hequals]

theorem entryValue_text {name : CStr} (hequals : equals ∉ name) (value : CStr) :
    entryValue (name ++ equals :: value) = value.dropWhile (· == space) := by
  rw [entryValue, cut_text hequals]
  rfl

theorem entryName_append {name : CStr} (hequals : equals ∉ name)
    (hname : name.head? ≠ some space) (value : CStr) :
    entryName (name ++ equals :: value) = name := by
  rw [entryName_text hequals, dropWhile_space hname]

theorem entryValue_append {name value : CStr} (hequals : equals ∉ name)
    (hvalue : value.head? ≠ some space) : entryValue (name ++ equals :: value) = value := by
  rw [entryValue_text hequals, dropWhile_space hvalue]

/-- Spaces in front of a piece do not matter. -/
theorem metaPiece_dropWhile (field : CStr) :
    entryName (field.dropWhile (· == space)) = entryName field ∧
      entryValue (field.dropWhile (· == space)) = entryValue field := by
  have htwice := dropWhile_space (head?_dropWhile_ne space field)
  rw [entryName, entryValue, htwice]
  exact ⟨rfl, rfl⟩

/-- Whether a piece fits the scratch buffers of a reader; the last piece is
not copied to `entry`. -/
def FieldFits (entrySize nameSize valueSize : Nat) (field : CStr) (last : Bool) : Prop :=
  (last = false → field.length < entrySize) ∧ (entryName field).length < nameSize ∧
    (entryValue field).length < valueSize

instance (entrySize nameSize valueSize : Nat) (field : CStr) (last : Bool) :
    Decidable (FieldFits entrySize nameSize valueSize field last) :=
  inferInstanceAs (Decidable ((_ → _) ∧ _ ∧ _))

/-- One piece of a header value, taken apart by a reader with buffers of the
given sizes. -/
def readEntry (entrySize nameSize valueSize : Nat) (field : CStr) (last : Bool) :
    Option (CStr × CStr) :=
  (AtmosUtil.entryText entrySize field last).bind fun entry =>
    AtmosUtil.parseMetaHeaderEntry nameSize valueSize entry []

theorem entryText_eq_some {entrySize : Nat} {field entry : CStr} {last : Bool} :
    AtmosUtil.entryText entrySize field last = some entry ↔
      (last = false → field.length < entrySize) ∧ field = entry := by
  cases last with
  | true => simp [AtmosUtil.entryText]
  | false => simp [AtmosUtil.entryText, strcpyTo_eq_some]

theorem parseMetaHeaderEntry_eq_some {nameSize valueSize : Nat} (hpos : 0 < valueSize)
    {entry : CStr} {p : CStr × CStr} :
    AtmosUtil.parseMetaHeaderEntry nameSize valueSize entry [] = some p ↔
      ((entryName entry).length < nameSize ∧ (entryValue entry).length < valueSize) ∧
        (entryName entry, entryValue entry) = p := by
  rw [AtmosUtil.parseMetaHeaderEntry, entryName, entryValue]
  generalize entry.dropWhile (· == space) = s
  rcases cut_spec equals s with ⟨-, hcut⟩ | ⟨field, valpos, -, -, hcut⟩
  · by_cases hname : s.length < nameSize
    · simp [hcut, hname, hpos]
    · simp [hcut, strcpyTo, hname]
  · by_cases hname : field.length < nameSize
    · by_cases hvalue : (valpos.dropWhile (· == space)).length < valueSize
      · simp [hcut, hname, hvalue]
      · simp [hcut, strcpyTo, hname, hvalue]
    · simp [hcut, strcpyTo, hname]

/-- **Taking a piece apart** succeeds exactly when it fits. -/
theorem readEntry_eq_some {entrySize nameSize valueSize : Nat} (hpos : 0 < valueSize)
    {field : CStr} {last : Bool} {p : CStr × CStr} :
    readEntry entrySize nameSize valueSize field last = some p ↔
      FieldFits entrySize nameSize valueSize field last ∧
        (entryName field, entryValue field) = p := by
  rw [readEntry, Option.bind_eq_some_iff, FieldFits]
  constructor
  · rintro ⟨entry, hentry, hparse⟩
    obtain ⟨hfits, rfl⟩ := entryText_eq_some.mp hentry
    obtain ⟨hsizes, hp⟩ := (parseMetaHeaderEntry_eq_some hpos).mp hparse
    exact ⟨⟨hfits, hsizes⟩, hp⟩
  · rintro ⟨⟨hfits, hsizes⟩, hp⟩
    exact ⟨field, entryText_eq_some.mpr ⟨hfits, rfl⟩,
      (parseMetaHeaderEntry_eq_some hpos).mpr ⟨hsizes, hp⟩⟩

/-- Whether the writer puts an entry into the header: in plain mode it skips
those with special characters. -/
def isWritten (utf8 : Bool) (entry : AtmosMetadata) : Bool :=
  utf8 || !(AtmosUtil.metaCharCheck entry.name || AtmosUtil.metaCharCheck entry.value)

theorem isWritten_iff {utf8 : Bool} {entry : AtmosMetadata} :
    isWritten utf8 entry = true ↔ ¬ (utf8 = false ∧
      (AtmosUtil.metaCharCheck entry.name = true ∨
        AtmosUtil.metaCharCheck entry.value = true)) := by
  rw [isWritten]
  cases utf8 <;> simp

section Writing

variable (curl : Curl) (utf8 : Bool) {text : AtmosMetadata → CStr}

/-- From the second entry on a comma comes before every text. -/
theorem metadataLoop_succ {entries : List AtmosMetadata}
    (htext : ∀ e ∈ entries, AtmosUtil.metadataEntry curl utf8 e = some (text e))
    (i : Nat) (first header : CStr) :
    AtmosUtil.metadataLoop curl utf8 (i + 1) entries (header ++ first) =
      some (header ++
        [comma].intercalate (first :: (entries.filter (isWritten utf8)).map text)) := by
  induction entries generalizing i first header with
  | nil => simp [AtmosUtil.metadataLoop]
  | cons entry entries ih =>
      have hrest := ih fun e he => htext e (List.mem_cons_of_mem _ he)
      rw [AtmosUtil.metadataLoop, List.filter_cons]
      by_cases hwritten : isWritten utf8 entry = true
      · rw [if_neg (isWritten_iff.mp hwritten), if_pos hwritten,
          htext entry (List.mem_cons_self ..), if_pos (Nat.succ_pos i), Option.bind_eq_bind,
          Option.bind_some, hrest, List.map_cons, List.intercalate_cons_cons]
        simp
      · rw [if_pos (not_not.mp (mt isWritten_iff.mpr hwritten)), if_neg hwritten]
        exact hrest (i + 1) first header

/-- **The loop of the writer** joins the texts of the entries it does not skip;
where it skips the first entry, an empty text stands in its place. -/
theorem metadataLoop_cons {entry : AtmosMetadata} {entries : List AtmosMetadata}
    (htext : ∀ e ∈ entry :: entries, AtmosUtil.metadataEntry curl utf8 e = some (text e))
    (header : CStr) :
    AtmosUtil.metadataLoop curl utf8 0 (entry :: entries) header =
      some (header ++ [comma].intercalate ((if isWritten utf8 entry then text entry else []) ::
        (entries.filter (isWritten utf8)).map text)) := by
  have hrest := @metadataLoop_succ curl utf8 text entries
    fun e he => htext e (List.mem_cons_of_mem _ he)
  rw [AtmosUtil.metadataLoop]
  by_cases hwritten : isWritten utf8 entry = true
  · rw [if_neg (isWritten_iff.mp hwritten), if_pos hwritten, htext entry (List.mem_cons_self ..)]
    exact hrest 0 (text entry) header
  · have hempty := hrest 0 [] header
    rw [List.append_nil] at hempty
    rw [if_pos (not_not.mp (mt isWritten_iff.mpr hwritten)), if_neg hwritten]
    exact hempty

/-- The loop of the writer, when it skips no entry. -/
theorem metadataLoop_eq {entries : List AtmosMetadata}
    (hkept : ∀ e ∈ entries, isWritten utf8 e = true)
    (htext : ∀ e ∈ entries, AtmosUtil.metadataEntry curl utf8 e = some (text e))
    (header : CStr) :
    AtmosUtil.metadataLoop curl utf8 0 entries header =
      some (header ++ [comma].intercalate (entries.map text)) := by
  cases entries with
  | nil => simp [AtmosUtil.metadataLoop]
  | cons entry entries =>
      have hfilter : entries.filter (isWritten utf8) = entries :=
        List.filter_eq_self.mpr fun e he => hkept e (List.mem_cons_of_mem _ he)
      rw [metadataLoop_cons curl utf8 htext, if_pos (hkept entry (List.mem_cons_self ..)), hfilter,
        List.map_cons]

end Writing

/-- What the loop appends does not depend on the text before it. -/
theorem metadataLoop_append (curl : Curl) (utf8 : Bool) (entries : List AtmosMetadata)
    (i : Nat) (header text : CStr) :
    AtmosUtil.metadataLoop curl utf8 i entries (header ++ text) =
      (AtmosUtil.metadataLoop curl utf8 i entries text).map (header ++ ·) := by
  induction entries generalizing i text with
  | nil => rfl
  | cons entry entries ih =>
      rw [AtmosUtil.metadataLoop, AtmosUtil.metadataLoop]
      split
      · exact ih (i + 1) text
      · cases AtmosUtil.metadataEntry curl utf8 entry with
        | none => rfl
        | some added =>
            simp only [Option.bind_eq_bind, Option.bind_some]
            by_cases hi : 0 < i
            · rw [if_pos hi, if_pos hi]
              simpa using ih (i + 1) (text ++ [comma] ++ added)
            · rw [if_neg hi, if_neg hi]
              simpa using ih (i + 1) (text ++ added)

/-- The value of a metadata header. -/
def metadataValue (curl : Curl) (utf8 : Bool) (entries : List AtmosMetadata) : CStr :=
  (AtmosUtil.metadataLoop curl utf8 0 entries []).getD []

/-- **What the writer adds** for a list that is not empty. -/
theorem setMetadataHeader_eq_some {curl : Curl} {entries : List AtmosMetadata}
    {listable utf8 : Bool} {request request' : RestRequest} (hne : 0 < entries.length)
    (h : AtmosUtil.setMetadataHeader curl entries listable utf8 request = some request') :
    request' = request.addHeader (headerLine (AtmosUtil.metadataHeaderName listable)
      (metadataValue curl utf8 entries)) := by
  rw [AtmosUtil.setMetadataHeader, if_neg (by omega)] at h
  obtain ⟨header, hloop, h⟩ := Option.bind_eq_some_iff.mp h
  have happend := metadataLoop_append curl utf8 entries 0
    (AtmosUtil.metadataHeaderName listable ++ bytes ": ") []
  rw [List.append_nil, hloop] at happend
  obtain ⟨value, hvalue, rfl⟩ := Option.map_eq_some_iff.mp happend.symm
  rw [← Option.some.inj h, metadataValue, hvalue, Option.getD_some]
  rfl

/-! ## The reader as a reading and a storing pass -/

/-- The string the reader stores for a piece of the header; none where it
cannot be unescaped. -/
def storedText (curl : Curl) (utf8 : Bool) (src : CStr) : Option CStr :=
  if utf8 then (curl.easyUnescape src).map fun decoded => decoded.takeWhile (· != 0)
  else some src

section Storing

variable {n : Nat} (curl : Curl) (utf8 : Bool)

/-- The block after a field of `destsz` bytes at `off` is given a text. -/
def copyUtf8 (slot : Block n) (off : Nat) (src : CStr) (destsz : Nat)
    (h : 0 < destsz ∧ off + destsz ≤ n) : Block n :=
  (storedText curl utf8 src).elim slot fun s => slot.put off (strlcpy s destsz) (strlcpy_fits h s)

/-- The truncating copy never leaves its field. -/
theorem strlcpyUtf8_eq (slot : Block n) (off : Nat) (src : CStr) {destsz : Nat}
    (h : 0 < destsz ∧ off + destsz ≤ n) :
    AtmosUtil.strlcpyUtf8 curl slot off src destsz utf8 =
      some (copyUtf8 curl utf8 slot off src destsz h) := by
  cases utf8 with
  | false =>
      rw [AtmosUtil.strlcpyUtf8, if_neg (by simp), Block.write_of_fits _ (strlcpy_fits h _)]
      rfl
  | true =>
      rw [AtmosUtil.strlcpyUtf8, if_pos rfl, copyUtf8, storedText, if_pos rfl]
      cases curl.easyUnescape src with
      | none => rfl
      | some decoded => exact Block.write_of_fits _ (strlcpy_fits h _)

/-- A slot after an entry is stored in it. -/
def storeEntry (entry : CStr × CStr) (slot : MetadataSlot) : MetadataSlot :=
  copyUtf8 curl utf8
    (copyUtf8 curl utf8 slot 0 entry.1 atmosMetaValueMax (by decide))
    atmosMetaNameMax entry.2 atmosMetaValueMax (by decide)

theorem storeMetadata_eq (array : AtmosUtil.MetadataArray) (entry : CStr × CStr) :
    AtmosUtil.storeMetadata curl utf8 array entry.1 entry.2 =
      appendSlot (storeEntry curl utf8) array entry := by
  obtain ⟨slots, count⟩ := array
  rw [AtmosUtil.storeMetadata, appendSlot]
  cases slots[count]? with
  | none => rfl
  | some slot =>
      simp only [Option.bind_eq_bind, Option.bind_some]
      rw [strlcpyUtf8_eq curl utf8 slot 0 entry.1 (by decide), Option.bind_some,
        strlcpyUtf8_eq curl utf8 _ atmosMetaNameMax entry.2 (by decide)]
      rfl

end Storing

/-- Whether a piece fits the scratch buffers of the metadata reader. -/
def MetaFieldFits (field : CStr) (last : Bool) : Prop :=
  FieldFits AtmosUtil.metaEntrySize AtmosUtil.metaEntryNameSize
    AtmosUtil.metaEntryValueSize field last

instance (field : CStr) (last : Bool) : Decidable (MetaFieldFits field last) :=
  inferInstanceAs (Decidable (FieldFits ..))

/-- What the reader takes from a piece: nothing, if its name is a system
name. -/
def metaEntries (field : CStr) : List (CStr × CStr) :=
  if AtmosUtil.isSystemMetaName (entryName field) then []
  else [(entryName field, entryValue field)]

/-- So a list of pieces yields its entries without those of system metadata. -/
theorem flatMap_metaEntries (fields : List CStr) :
    fields.flatMap metaEntries =
      (fields.map fun field => (entryName field, entryValue field)).filter
        fun entry => entry.1 ∉ atmosSystemMetaNames := by
  induction fields with
  | nil => rfl
  | cons field fields ih =>
      rw [List.flatMap_cons, List.map_cons, List.filter_cons, ← ih, metaEntries,
        AtmosUtil.isSystemMetaName]
      by_cases hsystem : entryName field ∈ atmosSystemMetaNames
      · simp [hsystem]
      · simp [hsystem]

/-- The reading part of one round. -/
def metaPiece (field : CStr) (last : Bool) : Option (List (CStr × CStr)) :=
  (readEntry AtmosUtil.metaEntrySize AtmosUtil.metaEntryNameSize
    AtmosUtil.metaEntryValueSize field last).map fun p =>
      if AtmosUtil.isSystemMetaName p.1 then [] else [p]

theorem metaPiece_eq_some (field : CStr) (last : Bool) (ps : List (CStr × CStr)) :
    metaPiece field last = some ps ↔ MetaFieldFits field last ∧ metaEntries field = ps := by
  rw [metaPiece, Option.map_eq_some_iff]
  constructor
  · rintro ⟨p, hp, hps⟩
    obtain ⟨hfits, rfl⟩ := (readEntry_eq_some (by decide)).mp hp
    exact ⟨hfits, hps⟩
  · rintro ⟨hfits, hps⟩
    exact ⟨_, (readEntry_eq_some (by decide)).mpr ⟨hfits, rfl⟩, hps⟩

/-- One round reads a piece and stores it. -/
theorem parseMetaField_eq (curl : Curl) (utf8 : Bool) (array : AtmosUtil.MetadataArray)
    (field : CStr) (last : Bool) :
    AtmosUtil.parseMetaField curl utf8 array field last =
      (metaPiece field last).bind fun entries =>
        entries.foldlM (appendSlot (storeEntry curl utf8)) array := by
  rw [AtmosUtil.parseMetaField, metaPiece, readEntry]
  cases AtmosUtil.entryText AtmosUtil.metaEntrySize field last with
  | none => rfl
  | some entry =>
      simp only [Option.bind_eq_bind, Option.bind_some]
      cases AtmosUtil.parseMetaHeaderEntry AtmosUtil.metaEntryNameSize
          AtmosUtil.metaEntryValueSize entry [] with
      | none => rfl
      | some parsed =>
          simp only [Option.bind_some, Option.map_some]
          split
          · rfl
          · have hstore := storeMetadata_eq curl utf8 array parsed
            rw [List.foldlM_cons, ← hstore]
            cases AtmosUtil.storeMetadata curl utf8 array parsed.1 parsed.2 <;> rfl

/-- **The reader**: the pieces between the commas are taken apart, and the
entries found are stored one after the other. -/
theorem parseMetaHeaderString_eq (curl : Curl) (utf8 : Bool) (value : CStr)
    (array : AtmosUtil.MetadataArray) :
    AtmosUtil.parseMetaHeaderString curl utf8 value array =
      (mapFields metaPiece (value.splitOn comma)).bind fun entries =>
        entries.flatten.foldlM (appendSlot (storeEntry curl utf8)) array := by
  rw [AtmosUtil.parseMetaHeaderString, scanFields_eq_foldFields]
  exact foldFields_eq_mapFields (parseMetaField_eq curl utf8) _ _

/-! ## The headers of a response -/

/-- The pieces of a header, if the response has it. -/
def metaFields (rest : RestClient) (headers : List CStr) (name : CStr) : List CStr :=
  (rest.getHeaderValue headers name).elim [] (·.splitOn comma)

/-- The entries of a header that are not system metadata. -/
def metaItems (rest : RestClient) (headers : List CStr) (name : CStr) : List (CStr × CStr) :=
  (metaFields rest headers name).flatMap metaEntries

/-- **What is stored for a header.**  If every piece fits the scratch buffers
and the array has room, the slots at its start are given the entries, and no
other slot changes; otherwise there is no result. -/
theorem parseMetaHeader_eq_some (rest : RestClient) (curl : Curl) (headers : List CStr)
    (name : CStr) (slots : List MetadataSlot) (result : AtmosUtil.MetadataArray) :
    AtmosUtil.parseMetaHeader rest curl headers name (slots, 0) = some result ↔
      (AllFields MetaFieldFits (metaFields rest headers name) ∧
        (metaItems rest headers name).length ≤ slots.length) ∧
      (List.zipWith (storeEntry curl (AtmosUtil.isUtf8 rest headers))
          (metaItems rest headers name) slots ++
        slots.drop (metaItems rest headers name).length,
        (metaItems rest headers name).length) = result := by
  rw [AtmosUtil.parseMetaHeader, metaItems, metaFields]
  cases rest.getHeaderValue headers name with
  | none => simp [AllFields]
  | some value =>
      simp only [Option.elim_some, parseMetaHeaderString_eq]
      by_cases hfits : AllFields MetaFieldFits (value.splitOn comma)
      · have hread := (mapFields_eq_some_iff metaPiece_eq_some).mpr ⟨hfits, rfl⟩
        rw [hread, Option.bind_some, ← List.flatMap_def,
          foldlM_appendSlot _ _ (Nat.zero_le _)]
        generalize (value.splitOn comma).flatMap metaEntries = items
        by_cases hroom : items.length ≤ slots.length
        · simp [hroom, hfits]
        · simp [hroom]
      · have hread : mapFields metaPiece (value.splitOn comma) = none := by
          rw [Option.eq_none_iff_forall_ne_some]
          intro entries hentries
          exact hfits ((mapFields_eq_some_iff metaPiece_eq_some).mp hentries).1
        simp [hread, hfits]

end Atmos
