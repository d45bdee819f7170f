import Atmos.ResponseTexts
import Atmos.UnparsedFailures

/-!
# Timestamp buffers

`AtmosUtil_parse_xml_datetime` copies its text into a buffer of 255 bytes, cuts
the last character off the copy and appends the name of a zone.  Its model on
texts is refined here by one on the bytes of the buffer, and followed into the
five places where a server supplies the text.
-/

namespace Atmos

open ByteText FixedMemory XmlTree AtmosUtil

/-! ## The bytes of the buffer -/

namespace AtmosUtil

/-- `AtmosUtil_parse_xml_datetime` before `strptime`, on its uninitialised buffer:
no result if a byte outside is read or written.  In front of an empty copy the
index wraps. -/
def editDatetime (buffer : Block atmosSimpleHeaderMax) (value : CStr) :
    Option (Block atmosSimpleHeaderMax) := do
  let buffer ← buffer.write 0 (strlcpy value atmosSimpleHeaderMax)
  let text ← buffer.cstrAt 0
  let buffer ← buffer.write (UInt64.ofNat text.length - 1).toNat [0]
  buffer.strcat (bytes "GMT")

/-- `AtmosUtil_parse_xml_datetime` on its uninitialised buffer. -/
def parseDatetimeIn (time : TimeLibrary) (buffer : Block atmosSimpleHeaderMax) (value : CStr) :
    Option Int64 := do
  let buffer ← editDatetime buffer value
  let text ← buffer.cstrAt 0
  some ((time.strptime text (bytes "%FT%T%Z")).elim 0 fun t =>
    if time.hasTmGmtoff then time.mktime t else time.mktime t - time.timezone)

/-- The bounded copy is a string in the buffer. -/
theorem copied_cstrAt (buffer : Block atmosSimpleHeaderMax) {value : CStr} (hvalue : 0 ∉ value) :
    ∃ copied, buffer.write 0 (strlcpy value atmosSimpleHeaderMax) = some copied ∧
      copied.cstrAt 0 = some (value.take (atmosSimpleHeaderMax - 1)) := by
  have hfits : 0 + (strlcpy value atmosSimpleHeaderMax).length ≤ atmosSimpleHeaderMax := by
    have hle := length_strlcpy_le value (by decide : 0 < atmosSimpleHeaderMax)
    omega
  have hnul : (0 : UInt8) ∉ value.take (atmosSimpleHeaderMax - 1) :=
    fun hmem => hvalue (List.mem_of_mem_take hmem)
  refine ⟨_, buffer.write_of_fits hfits, ?_⟩
  have hread := buffer.put_cstrAt (value.take (atmosSimpleHeaderMax - 1)) hfits
  rwa [takeWhile_ne_zero hnul] at hread

/-- The last character is cut off, where there is one. -/
theorem cut_cstrAt {buffer : Block atmosSimpleHeaderMax} {text : CStr}
    (hread : buffer.cstrAt 0 = some text) (hne : text ≠ []) :
    ∃ cut, buffer.write (UInt64.ofNat text.length - 1).toNat [0] = some cut ∧
      cut.cstrAt 0 = some text.dropLast := by
  have hlength := Block.cstrAt_zero_length hread
  have hsize : atmosSimpleHeaderMax = 255 := rfl
  have hpos := List.length_pos_iff.mpr hne
  have hindex : (UInt64.ofNat text.length - 1).toNat = text.length - 1 := by
    rw [UInt64.toNat_sub_of_le]
    · rw [UInt64.toNat_ofNat_of_lt' (by have : UInt64.size = 18446744073709551616 := rfl; omega)]
      rfl
    · rw [UInt64.le_iff_toNat_le, UInt64.toNat_ofNat_of_lt'
        (by have : UInt64.size = 18446744073709551616 := rfl; omega)]
      exact hpos
  have hfits : text.length - 1 + (([] : CStr) ++ [0]).length ≤ atmosSimpleHeaderMax := by
    rw [List.nil_append, List.length_singleton]
    omega
  rw [hindex]
  refine ⟨_, buffer.write_of_fits hfits, ?_⟩
  have hcut := Block.put_cstrAt_splice hread (Nat.sub_le _ _) List.not_mem_nil hfits
  rwa [List.append_nil, ← List.dropLast_eq_take] at hcut

/-- In front of an empty copy nothing can be written. -/
theorem cut_nil (buffer : Block atmosSimpleHeaderMax) :
    buffer.write (UInt64.ofNat ([] : CStr).length - 1).toNat [0] = none := by
  rw [Block.write, dif_neg (by decide)]

/-- **What the edit leaves in the buffer**, whatever was there. -/
theorem editDatetime_bind_cstrAt (buffer : Block atmosSimpleHeaderMax) {value : CStr}
    (hvalue : 0 ∉ value) :
    (editDatetime buffer value).bind (·.cstrAt 0) =
      if value.take (atmosSimpleHeaderMax - 1) = [] then none
      else strcpyTo atmosSimpleHeaderMax
        ((value.take (atmosSimpleHeaderMax - 1)).dropLast ++ bytes "GMT") := by
  obtain ⟨copied, hcopy, hcopied⟩ := copied_cstrAt buffer hvalue
  have hedit : editDatetime buffer value =
      (copied.write (UInt64.ofNat (value.take (atmosSimpleHeaderMax - 1)).length - 1).toNat
        [0]).bind fun buffer => buffer.strcat (bytes "GMT") := by
    unfold editDatetime
    simp only [hcopy, hcopied, Option.bind_eq_bind, Option.bind_some]
  rw [hedit]
  split
  · rename_i hnil
    rw [hnil, cut_nil]
    rfl
  · rename_i hne
    obtain ⟨cut, hwrite, hcut⟩ := cut_cstrAt hcopied hne
    rw [hwrite, Option.bind_some]
    exact Block.strcat_bind_cstrAt hcut (by decide)

/-- **The two models agree.** -/
theorem parseDatetimeIn_eq (time : TimeLibrary) (buffer : Block atmosSimpleHeaderMax)
    {value : CStr} (hvalue : 0 ∉ value) :
    parseDatetimeIn time buffer value = parseXmlDatetime time value := by
  have hbind : parseDatetimeIn time buffer value =
      ((editDatetime buffer value).bind (·.cstrAt 0)).map fun text =>
        (time.strptime text (bytes "%FT%T%Z")).elim 0 fun t =>
          if time.hasTmGmtoff then time.mktime t else time.mktime t - time.timezone := by
    unfold parseDatetimeIn
    cases editDatetime buffer value with
    | none => rfl
    | some edited =>
        simp only [Option.bind_eq_bind, Option.bind_some]
        cases edited.cstrAt 0 <;> rfl
  rw [hbind, editDatetime_bind_cstrAt buffer hvalue, parseXmlDatetime]
  by_cases hnil : value.take (atmosSimpleHeaderMax - 1) = []
  · rw [if_pos hnil, if_pos hnil, Option.map_none]
  · rw [if_neg hnil, if_neg hnil]

/-- `AtmosUtil_parse_xml_datetime` stays in its buffer and returns, with 0 for a
text that `strptime` does not take. -/
def DatetimeStays (time : TimeLibrary) (value : CStr) : Prop :=
  ∀ buffer : Block atmosSimpleHeaderMax, ∃ edited text t,
    editDatetime buffer value = some edited ∧ edited.cstrAt 0 = some text ∧
      parseDatetimeIn time buffer value = some t ∧
      (time.strptime text (bytes "%FT%T%Z") = none → t = 0)

/-- It does for a text of the model that has a result. -/
theorem datetimeStays_iff_isSome (time : TimeLibrary) {value : CStr} (hvalue : 0 ∉ value) :
    DatetimeStays time value ↔ (parseXmlDatetime time value).isSome := by
  constructor
  · intro h
    obtain ⟨-, -, t, -, -, ht, -⟩ := h (.zero _)
    rw [← parseDatetimeIn_eq time (.zero _) hvalue, ht]
    rfl
  · intro h buffer
    rw [← parseDatetimeIn_eq time buffer hvalue] at h
    obtain ⟨t, ht⟩ := Option.isSome_iff_exists.mp h
    obtain ⟨edited, hedited, hrest⟩ := Option.bind_eq_some_iff.mp ht
    obtain ⟨text, htext, hresult⟩ := Option.bind_eq_some_iff.mp hrest
    refine ⟨edited, text, t, hedited, htext, ht, ?_⟩
    intro hfails
    rw [hfails] at hresult
    exact (Option.some.inj hresult).symm

/-- **The texts it can take** have between 1 and 252 bytes. -/
theorem datetimeStays_iff (time : TimeLibrary) {value : CStr} (hvalue : 0 ∉ value) :
    DatetimeStays time value ↔ 0 < value.length ∧ value.length ≤ 252 := by
  rw [datetimeStays_iff_isSome time hvalue, parseXmlDatetime_isSome_iff]

end AtmosUtil

/-! ## The callers -/

/-- What a server sends timestamps in. -/
inductive TimestampSource (xml : LibxmlReader) where
  /-- the headers of a response, of which `x-emc-meta` has the times -/
  | header (headers : List CStr)
  /-- the children of a `DirectoryEntry` -/
  | directoryEntry (children : List Node)
  /-- the children of an `Object` -/
  | objectListing (children : List Node)
  /-- the children of a `Ver` -/
  | version (children : List Node)
  /-- the information about an object -/
  | objectInfo (doc : xml.Document)

namespace TimestampSource

/-- The values of the entries that set a time. -/
def timesOf (entries : List (CStr × CStr)) : List CStr :=
  (entries.filter fun entry => ∃ f ∈ SystemField.times, f.name = entry.1).map Prod.snd

theorem forall_timesOf {entries : List (CStr × CStr)} :
    (∀ text ∈ timesOf entries, 0 < text.length ∧ text.length ≤ 252) ↔
      ∀ entry ∈ entries, TimeFits entry := by
  simp only [timesOf, List.forall_mem_map, List.mem_filter, decide_eq_true_eq, and_imp, TimeFits]

/-- An entry of a list as a name and a value. -/
def listedEntry (texts : ListedText) : CStr × CStr := (texts.name, texts.value)

/-- The system metadata among the children of an entry of a listing. -/
def systemLists (xml : LibxmlReader) (children : List Node) : List ListedText :=
  children.flatMap (systemTexts xml.toXmlText)

/-- The entries of a listing are stored when they fit and their times do. -/
theorem forall_systemLists (xml : LibxmlReader) (children : List Node) :
    (∀ child ∈ children, ∀ texts ∈ systemTexts xml.toXmlText child, texts.SystemFits) ↔
      (∀ texts ∈ systemLists xml children, texts.Fits) ∧
        ∀ text ∈ timesOf ((systemLists xml children).map listedEntry),
          0 < text.length ∧ text.length ≤ 252 := by
  rw [forall_timesOf, List.forall_mem_map, ← forall₂_and]
  constructor
  · intro h texts htexts
    obtain ⟨child, hchild, hmem⟩ := List.mem_flatMap.mp htexts
    exact h child hchild texts hmem
  · intro h child hchild texts hmem
    exact h texts (List.mem_flatMap.mpr ⟨child, hchild, hmem⟩)

section Env

variable (env : ReplyEnv)

/-- The texts that `AtmosUtil_parse_xml_datetime` is called with. -/
def timestamps : TimestampSource env.xml → List CStr
  | .header headers =>
      timesOf ((env.rest.getHeaderValue headers atmosHeaderMeta).elim [] headerEntries)
  | .directoryEntry children => timesOf ((systemLists env.xml children).map listedEntry)
  | .objectListing children => timesOf ((systemLists env.xml children).map listedEntry)
  | .version children => children.filterMap (childText env.xml.toXmlText verNodeItime)
  | .objectInfo doc =>
      ([bytes "//cos:retention/cos:endAt", bytes "//cos:expiration/cos:endAt"].filterMap
        (AtmosGetObjectInfoResponse.valueOf env.xml doc)).filter (· ≠ [])

/-- What else has to fit a buffer while these texts are looked for. -/
def OthersFit : TimestampSource env.xml → Prop
  | .header headers => AllFields MetaFieldFits (metaFields env.rest headers atmosHeaderMeta)
  | .directoryEntry children => ∀ texts ∈ systemLists env.xml children, texts.Fits
  | .objectListing children => ∀ texts ∈ systemLists env.xml children, texts.Fits
  | .version _ => True
  | .objectInfo _ => True

/-- The parser of the reply gets to its end. -/
def Parsed : TimestampSource env.xml → Prop
  | .header headers =>
      ∀ system, (parseSystemMetaHeader env.time env.rest env.curl headers system).isSome
  | .directoryEntry children =>
      (AtmosDirectoryEntry.parseEntry env.time env.curl env.xml children).isSome
  | .objectListing children =>
      (AtmosObjectListing.parseEntry env.time env.curl env.xml children).isSome
  | .version children => (AtmosVersion.parseEntry env.time env.xml children).isSome
  | .objectInfo doc => ∀ self, (AtmosGetObjectInfoResponse.parse env.time env.xml doc self).isSome

variable {env}

/-- The header. -/
theorem header_parsed_iff (headers : List CStr) :
    (header headers).Parsed env ↔ (header headers).OthersFit env ∧
      ∀ text ∈ (header headers).timestamps env, 0 < text.length ∧ text.length ≤ 252 := by
  rw [Parsed, OthersFit, timestamps, forall_timesOf, metaFields]
  cases hvalue : env.rest.getHeaderValue headers atmosHeaderMeta with
  | none => simp [parseSystemMetaHeader, hvalue, AllFields]
  | some value =>
      simp only [parseSystemMetaHeader_isSome_iff env.time env.rest env.curl hvalue,
        Option.elim_some]
      exact ⟨fun h => h zeroedSystemMetadata, fun h _ => h⟩

/-- A version. -/
theorem version_parsed_iff (children : List Node) :
    (version children).Parsed env ↔ (version children).OthersFit env ∧
      ∀ text ∈ (version children).timestamps env, 0 < text.length ∧ text.length ≤ 252 := by
  have hsome : (AtmosVersion.parseEntry env.time env.xml children).isSome ↔
      ∀ child ∈ children, AtmosVersion.ItimeFits env.xml child :=
    LastWrite.foldlM_isSome_iff AtmosVersion.parseChild_isSome_iff children AtmosVersion.init
  rw [Parsed, OthersFit, timestamps, hsome, true_and]
  constructor
  · intro h text htext
    obtain ⟨child, hchild, hcontent⟩ := List.mem_filterMap.mp htext
    exact h child hchild text hcontent
  · intro h child hchild text hcontent
    exact h text (List.mem_filterMap.mpr ⟨child, hchild, hcontent⟩)

/-- Only the information about an object passes over empty texts. -/
theorem mem_objectInfo_timestamps {doc : env.xml.Document} {text : CStr} :
    text ∈ (objectInfo doc).timestamps env ↔
      (AtmosGetObjectInfoResponse.valueOf env.xml doc (bytes "//cos:retention/cos:endAt") =
          some text ∨
        AtmosGetObjectInfoResponse.valueOf env.xml doc (bytes "//cos:expiration/cos:endAt") =
          some text) ∧ text ≠ [] := by
  simp [timestamps]

/-- The information about an object. -/
theorem objectInfo_parsed_iff (doc : env.xml.Document) :
    (objectInfo doc).Parsed env ↔ (objectInfo doc).OthersFit env ∧
      ∀ text ∈ (objectInfo doc).timestamps env, 0 < text.length ∧ text.length ≤ 252 := by
  have hparsed : (objectInfo doc).Parsed env ↔
      ValueFits 253 (AtmosGetObjectInfoResponse.valueOf env.xml doc
        (bytes "//cos:retention/cos:endAt")) ∧
      ValueFits 253 (AtmosGetObjectInfoResponse.valueOf env.xml doc
        (bytes "//cos:expiration/cos:endAt")) := by
    rw [Parsed]
    simp only [AtmosGetObjectInfoResponse.parse_isSome_iff]
    exact ⟨fun h => h .init, fun h _ => h⟩
  rw [hparsed, OthersFit, true_and]
  constructor
  · rintro ⟨hretention, hexpiration⟩ text htext
    obtain ⟨hvalue, hne⟩ := mem_objectInfo_timestamps.mp htext
    have hlength : text.length < 253 := hvalue.elim (hretention text) (hexpiration text)
    exact ⟨List.length_pos_iff.mpr hne, by omega⟩
  · intro h
    have hends : ∀ selector,
        (∀ text, AtmosGetObjectInfoResponse.valueOf env.xml doc selector = some text →
          text ≠ [] → text ∈ (objectInfo doc).timestamps env) →
        ValueFits 253 (AtmosGetObjectInfoResponse.valueOf env.xml doc selector) := by
      intro selector hmem text hvalue
      by_cases hnil : text = []
      · rw [hnil]
        exact Nat.succ_pos _
      · have hlength := (h text (hmem text hvalue hnil)).2
        omega
    have hretention := hends (bytes "//cos:retention/cos:endAt") fun text hvalue hne =>
      mem_objectInfo_timestamps.mpr ⟨Or.inl hvalue, hne⟩
    have hexpiration := hends (bytes "//cos:expiration/cos:endAt") fun text hvalue hne =>
      mem_objectInfo_timestamps.mpr ⟨Or.inr hvalue, hne⟩
    exact ⟨hretention, hexpiration⟩

/-- **A parser gets to its end** if its texts fit and its times do. -/
theorem parsed_iff (source : TimestampSource env.xml) :
    source.Parsed env ↔ source.OthersFit env ∧
      ∀ text ∈ source.timestamps env, 0 < text.length ∧ text.length ≤ 252 := by
  cases source with
  | header headers => exact header_parsed_iff headers
  | directoryEntry children =>
      exact (AtmosDirectoryEntry.parseEntry_isSome_iff children).trans
        (forall_systemLists env.xml children)
  | objectListing children =>
      exact (AtmosObjectListing.parseEntry_isSome_iff children).trans
        (forall_systemLists env.xml children)
  | version children => exact version_parsed_iff children
  | objectInfo doc => exact objectInfo_parsed_iff doc

end Env

end TimestampSource

/-! ## Every timestamp of a reply -/

/-- **A timestamp stays in the buffer** exactly when it has between 1 and 252
bytes, wherever it comes from; and the parser of a reply whose other texts fit
gets to its end exactly when all its timestamps stay there. -/
theorem timestamps_stay_iff {env : ReplyEnv} (source : TimestampSource env.xml)
    (hnul : ∀ text ∈ source.timestamps env, 0 ∉ text) :
    (∀ text ∈ source.timestamps env,
      DatetimeStays env.time text ↔ 0 < text.length ∧ text.length ≤ 252) ∧
    (source.Parsed env ↔
      source.OthersFit env ∧ ∀ text ∈ source.timestamps env, DatetimeStays env.time text) := by
  have hstays : ∀ text ∈ source.timestamps env,
      (DatetimeStays env.time text ↔ 0 < text.length ∧ text.length ≤ 252) :=
    fun text htext => datetimeStays_iff env.time (hnul text htext)
  refine ⟨hstays, ?_⟩
  rw [source.parsed_iff]
  exact and_congr_right fun _ => forall₂_congr fun text htext => (hstays text htext).symm

/-- A header with the time of a last access. -/
def accessedSource (text : CStr) : TimestampSource LibxmlReader.blind :=
  .header [bytes "x-emc-meta: atime=" ++ text]

theorem timestamps_stay_iff_accessed :
    (∀ text ∈ (accessedSource (bytes "2011-02-25T16:05:11Z")).timestamps blindEnv,
      DatetimeStays .greenwich text ↔ 0 < text.length ∧ text.length ≤ 252) ∧
    ((accessedSource (bytes "2011-02-25T16:05:11Z")).Parsed blindEnv ↔
      (accessedSource (bytes "2011-02-25T16:05:11Z")).OthersFit blindEnv ∧
        ∀ text ∈ (accessedSource (bytes "2011-02-25T16:05:11Z")).timestamps blindEnv,
          DatetimeStays .greenwich text) :=
  @timestamps_stay_iff blindEnv (accessedSource (bytes "2011-02-25T16:05:11Z")) (by decide +kernel)

/-- A time without text is cut in front of the buffer, and behind a long one there
is no room for the zone. -/
theorem accessed_texts_leave_buffer :
    ((accessedSource []).timestamps blindEnv = [[]] ∧ ¬ DatetimeStays .greenwich []) ∧
    (accessedSource (List.replicate 253 50)).timestamps blindEnv = [List.replicate 253 50] ∧
      ¬ DatetimeStays .greenwich (List.replicate 253 50) := by
  have hleaves : ∀ {value : CStr}, editDatetime (.zero _) value = none →
      ¬ DatetimeStays .greenwich value := by
    intro value hnone h
    obtain ⟨edited, -, -, hedited, -⟩ := h (.zero _)
    rw [hnone] at hedited
    cases hedited
  have hempty : ¬ DatetimeStays .greenwich [] := hleaves (by decide +kernel)
  have hlong : ¬ DatetimeStays .greenwich (List.replicate 253 50) := hleaves (by decide +kernel)
  exact ⟨⟨by decide +kernel, hempty⟩, by decide +kernel, hlong⟩

end Atmos
