import Atmos.MetadataHeaders

/-!
# Metadata survives the header

What `AtmosUtil_set_metadata_header` writes,
`AtmosUtil_parse_meta_header_string` reads back, entry for entry and without
leaving a buffer.

* `Readable` — what an entry's text must be like to be read back, whatever the
  mode;
* `metaPiece_of_readable` and `view_storeEntry` — one entry is taken apart and
  stored;
* `readsBack_intercalate` — so is the whole list;
* `plain_metadata_round_trip` and `utf8_metadata_round_trip` — the two modes;
* `skipped_metadata_traceless_iff` — what skipping entries in plain mode leaves
  behind.
-/

namespace Atmos

open ByteText FixedMemory AtmosUtil

/-! ## One entry -/

/-- `name=value` is a text that reads back as the entry: the delimiters are
where the reader looks for them, no leading space is stripped, the pieces fit
the scratch buffers and the strings fit the fields. -/
structure Readable (curl : Curl) (utf8 : Bool) (entry : AtmosMetadata)
    (name value : CStr) : Prop where
  name_comma : comma ∉ name
  name_equals : equals ∉ name
  value_comma : comma ∉ value
  name_head : name.head? ≠ some space
  value_head : value.head? ≠ some space
  name_fits : name.length < metaEntryNameSize
  value_fits : value.length < metaEntryValueSize
  not_system : isSystemMetaName name = false
  name_stored : storedText curl utf8 name = some entry.name
  value_stored : storedText curl utf8 value = some entry.value
  name_nul : 0 ∉ entry.name
  value_nul : 0 ∉ entry.value
  name_length : entry.name.length < atmosMetaNameMax
  value_length : entry.value.length < atmosMetaValueMax

/-- A slot shows the texts that are stored in it. -/
theorem view_storeEntry_of_stored {curl : Curl} {utf8 : Bool} {entry : AtmosMetadata}
    {name value : CStr} (hstored : storedText curl utf8 name = some entry.name)
    (hstored' : storedText curl utf8 value = some entry.value) (h : entry.FitsFields)
    (slot : MetadataSlot) : (storeEntry curl utf8 (name, value) slot).view = some entry := by
  have hnameLength : entry.name.length < 255 := h.name_length
  have hcopied : strlcpy entry.name atmosMetaValueMax = entry.name ++ [0] :=
    strlcpy_of_length_lt (hnameLength.trans (by decide))
  have hcopied' : strlcpy entry.value atmosMetaValueMax = entry.value ++ [0] :=
    strlcpy_of_length_lt h.value_length
  simp only [storeEntry, copyUtf8, hstored, hstored', Option.elim_some, hcopied, hcopied']
  have hvalueLength : entry.value.length < 1024 := h.value_length
  have hfit : 0 + (entry.name ++ [0]).length ≤ 255 + 1024 := by
    simp
    omega
  have hfit' : 255 + (entry.value ++ [0]).length ≤ 255 + 1024 := by
    simp
    omega
  have hname := slot.put_cstrAt entry.name hfit
  rw [takeWhile_ne_zero h.name_nul] at hname
  have hname₂ := Block.put_cstrAt_above hname (by omega) hfit'
  have hvalue₂ := (slot.put 0 (entry.name ++ [0]) hfit).put_cstrAt entry.value hfit'
  rw [takeWhile_ne_zero h.value_nul] at hvalue₂
  rw [MetadataSlot.view, hname₂, hvalue₂]
  rfl

/-- A slot given a readable entry shows it. -/
theorem view_storeEntry {curl : Curl} {utf8 : Bool} {entry : AtmosMetadata}
    {name value : CStr} (h : Readable curl utf8 entry name value) (slot : MetadataSlot) :
    (storeEntry curl utf8 (name, value) slot).view = some entry :=
  view_storeEntry_of_stored h.name_stored h.value_stored
    ⟨h.name_nul, h.value_nul, h.name_length, h.value_length⟩ slot

/-- **One round of the reader.**  A readable text fits the scratch buffers and
is taken apart into its name and value. -/
theorem metaPiece_of_readable {curl : Curl} {utf8 : Bool} {entry : AtmosMetadata}
    {name value : CStr} (h : Readable curl utf8 entry name value) (last : Bool) :
    MetaFieldFits (name ++ equals :: value) last ∧
      metaEntries (name ++ equals :: value) = [(name, value)] := by
  have hname : name.length < 765 := h.name_fits
  have hvalue : value.length < 3072 := h.value_fits
  have hentryName := entryName_append h.name_equals h.name_head value
  have hentryValue := entryValue_append h.name_equals h.value_head
  constructor
  · refine ⟨fun _ => ?_, ?_, ?_⟩
    · have hsize : metaEntrySize = 3838 := rfl
      rw [List.length_append, List.length_cons]
      omega
    · rw [hentryName]
      exact h.name_fits
    · rw [hentryValue]
      exact h.value_fits
  · rw [metaEntries, hentryName, hentryValue, h.not_system]
    rfl

/-! ## The header value -/

/-- A header value that reads back as a list of entries: it has as many pieces
as the list, and reading it into an array stores the list, in order, at the
start of the array and nothing else. -/
def ReadsBack (curl : Curl) (utf8 : Bool) (value : CStr) (entries : List AtmosMetadata)
    (slots : List MetadataSlot) : Prop :=
  (value.splitOn comma).length = entries.length ∧
  ∃ stored, parseMetaHeaderString curl utf8 value (slots, 0) =
      some (stored ++ slots.drop entries.length, entries.length) ∧
    stored.map MetadataSlot.view = entries.map some

/-- The joined texts of readable entries read back. -/
theorem readsBack_intercalate {curl : Curl} {utf8 : Bool} {entries : List AtmosMetadata}
    {name value : AtmosMetadata → CStr} (hne : entries ≠ [])
    (h : ∀ e ∈ entries, Readable curl utf8 e (name e) (value e))
    {slots : List MetadataSlot} (hroom : entries.length ≤ slots.length) :
    ReadsBack curl utf8
      ([comma].intercalate (entries.map fun e => name e ++ equals :: value e)) entries
      slots := by
  have hpieces : ∀ l ∈ entries.map (fun e => name e ++ equals :: value e), comma ∉ l := by
    intro l hl
    obtain ⟨e, he, rfl⟩ := List.mem_map.mp hl
    intro hcomma
    rcases List.mem_append.mp hcomma with hcomma | hcomma
    · exact (h e he).name_comma hcomma
    · rcases List.mem_cons.mp hcomma with heq | hcomma
      · exact absurd heq (by decide)
      · exact (h e he).value_comma hcomma
  have hsplit := List.splitOn_intercalate comma hpieces (by simpa using hne)
  have hread : mapFields metaPiece (entries.map fun e => name e ++ equals :: value e) =
      some (entries.map fun e => [(name e, value e)]) := by
    apply (mapFields_eq_some_iff metaPiece_eq_some).mpr
    constructor
    · apply allFields_of_forall
      intro field hfield last
      obtain ⟨e, he, rfl⟩ := List.mem_map.mp hfield
      exact (metaPiece_of_readable (h e he) last).1
    · rw [List.map_map]
      apply List.map_congr_left
      intro e he
      exact (metaPiece_of_readable (h e he) true).2
  have hflat : (entries.map fun e => [(name e, value e)]).flatten =
      entries.map fun e => (name e, value e) := by
    rw [← List.flatMap_def, List.map_eq_flatMap]
  refine ⟨?_, List.zipWith (storeEntry curl utf8) (entries.map fun e => (name e, value e))
    slots, ?_, ?_⟩
  · rw [hsplit, List.length_map]
  · rw [parseMetaHeaderString_eq, hsplit, hread, Option.bind_some, hflat,
      foldlM_appendSlot _ _ (Nat.zero_le _), if_pos (by simpa using hroom)]
    simp
  · rw [map_zipWith_store (storeEntry curl utf8)
      (fun e he slot => view_storeEntry (h e he) slot) hroom, List.map_id']

/-- What the writer adds to the request. -/
theorem setMetadataHeader_eq {curl : Curl} {utf8 : Bool} {entries : List AtmosMetadata}
    {text : AtmosMetadata → CStr} (hne : entries ≠ [])
    (hkept : ∀ e ∈ entries, isWritten utf8 e = true)
    (htext : ∀ e ∈ entries, metadataEntry curl utf8 e = some (text e))
    (listable : Bool) (request : RestRequest) :
    setMetadataHeader curl entries listable utf8 request =
      some (request.addHeader (metadataHeaderName listable ++ bytes ": " ++
        [comma].intercalate (entries.map text))) := by
  have hlength : ¬ entries.length < 1 := by
    intro hlt
    exact hne (List.length_eq_zero_iff.mp (by omega))
  rw [setMetadataHeader, if_neg hlength]
  simp only [metadataLoop_eq curl utf8 hkept htext]
  rfl

/-! ## Plain mode -/

/-- An entry that can be sent without encoding. -/
structure PlainEntry (entry : AtmosMetadata) : Prop where
  name_chars : metaCharCheck entry.name = false
  value_chars : metaCharCheck entry.value = false
  not_system : isSystemMetaName entry.name = false
  name_head : entry.name.head? ≠ some space
  value_head : entry.value.head? ≠ some space
  name_length : entry.name.length ≤ 254
  value_length : entry.value.length ≤ 1023

/-- The character check keeps delimiters and terminators out. -/
theorem ne_of_metaCharCheck {str : CStr} (h : metaCharCheck str = false) :
    comma ∉ str ∧ equals ∉ str ∧ 0 ∉ str := by
  have hbad : ∀ b : UInt8, metaCharCheck [b] = true → b ∉ str := by
    intro b hb hmem
    rw [metaCharCheck, List.any_eq_false] at h
    rw [metaCharCheck, List.any_cons, List.any_nil, Bool.or_false] at hb
    exact h b hmem hb
  exact ⟨hbad comma (by decide), hbad equals (by decide), hbad 0 (by decide)⟩

theorem PlainEntry.readable {entry : AtmosMetadata} (h : PlainEntry entry) (curl : Curl) :
    Readable curl false entry entry.name entry.value := by
  obtain ⟨hnameComma, hnameEquals, hnameNul⟩ := ne_of_metaCharCheck h.name_chars
  obtain ⟨hvalueComma, -, hvalueNul⟩ := ne_of_metaCharCheck h.value_chars
  exact
    { name_comma := hnameComma
      name_equals := hnameEquals
      value_comma := hvalueComma
      name_head := h.name_head
      value_head := h.value_head
      name_fits := lt_of_le_of_lt h.name_length (by decide)
      value_fits := lt_of_le_of_lt h.value_length (by decide)
      not_system := h.not_system
      name_stored := rfl
      value_stored := rfl
      name_nul := hnameNul
      value_nul := hvalueNul
      name_length := lt_of_le_of_lt h.name_length (by decide)
      value_length := lt_of_le_of_lt h.value_length (by decide) }

/-- **Plain-mode round trip.**  For either kind of metadata, the header value
written for at most 127 plain entries is read back into an array of 127 slots
as exactly these entries in order; no entry, no header. -/
theorem plain_metadata_round_trip (curl : Curl) (listable : Bool)
    {entries : List AtmosMetadata} (request : RestRequest) {slots : List MetadataSlot}
    (hcount : entries.length ≤ 127) (hentries : ∀ e ∈ entries, PlainEntry e)
    (hslots : slots.length = atmosMetaCountMax) :
    (entries = [] → setMetadataHeader curl entries listable false request = some request) ∧
    (entries ≠ [] → ∃ value, setMetadataHeader curl entries listable false request =
        some (request.addHeader (metadataHeaderName listable ++ bytes ": " ++ value)) ∧
      ReadsBack curl false value entries slots) := by
  constructor
  · rintro rfl
    rfl
  · intro hne
    have hkept : ∀ e ∈ entries, isWritten false e = true := by
      intro e he
      rw [isWritten, (hentries e he).name_chars, (hentries e he).value_chars]
      rfl
    have htext : ∀ e ∈ entries, metadataEntry curl false e =
        some (e.name ++ equals :: e.value) := by
      intro e _
      simp [metadataEntry]
    refine ⟨_, setMetadataHeader_eq hne hkept htext listable request, ?_⟩
    exact readsBack_intercalate hne (fun e he => (hentries e he).readable curl)
      (hcount.trans (by rw [hslots]))

/-- An array of zeroed slots. -/
private def zeroedSlots : List MetadataSlot := List.replicate atmosMetaCountMax zeroedMetadata

/-- An empty value, an empty name, and spaces that are kept. -/
private def plainEntries : List AtmosMetadata :=
  [⟨bytes "color", []⟩, ⟨[], bytes "b "⟩, ⟨bytes "a key", bytes "a  value"⟩]

theorem plain_metadata_round_trip_three :
    ∃ value, setMetadataHeader Curl.standard plainEntries true false
        (RestRequest.init (bytes "/rest/objects") .post) =
      some ((RestRequest.init (bytes "/rest/objects") .post).addHeader
        (metadataHeaderName true ++ bytes ": " ++ value)) ∧
      ReadsBack Curl.standard false value plainEntries zeroedSlots := by
  have hplain : ∀ e ∈ plainEntries, PlainEntry e := by
    intro e he
    simp only [plainEntries, List.mem_cons, List.not_mem_nil, or_false] at he
    rcases he with rfl | rfl | rfl <;> constructor <;> decide
  exact (plain_metadata_round_trip Curl.standard true _ (by decide) hplain
    List.length_replicate).2 (by decide)

/-! ## UTF-8 mode -/

/-- An entry that can be sent percent-encoded. -/
structure EncodableEntry (entry : AtmosMetadata) : Prop where
  name_nul : 0 ∉ entry.name
  value_nul : 0 ∉ entry.value
  not_system : isSystemMetaName entry.name = false
  name_length : entry.name.length ≤ 254
  value_length : entry.value.length ≤ 1023

/-- An encoded text starts with no space. -/
theorem head_encode (s : CStr) : (PercentEncoding.encode s).head? ≠ some space := by
  intro h
  exact PercentEncoding.notMem_encode (by decide) (by decide) s (List.mem_of_head? h)

/-- The filter, applied before decoding, sees a system name only for a system
name: these are their own encodings. -/
theorem isSystemMetaName_encode (s : CStr) :
    isSystemMetaName (PercentEncoding.encode s) = isSystemMetaName s := by
  have hself : ∀ n ∈ atmosSystemMetaNames, PercentEncoding.encode n = n := by
    intro n hn
    have hplain : ∀ n ∈ atmosSystemMetaNames, n.all PercentEncoding.unreserved = true := by
      decide
    exact PercentEncoding.encode_of_unreserved (List.all_eq_true.mp (hplain n hn))
  rw [isSystemMetaName, isSystemMetaName, Bool.eq_iff_iff, List.contains_iff_mem,
    List.contains_iff_mem]
  constructor
  · intro h
    rw [PercentEncoding.encode_injective (hself _ h)] at h
    exact h
  · intro h
    rw [hself s h]
    exact h

theorem storedText_encode {curl : Curl} (hcurl : curl.Documented) {s : CStr}
    (hnul : 0 ∉ s) : storedText curl true (PercentEncoding.encode s) = some s := by
  rw [storedText, if_pos rfl, hcurl.unescape, Option.map_some,
    takeWhile_ne_zero hnul]

theorem EncodableEntry.readable {curl : Curl} (hcurl : curl.Documented)
    {entry : AtmosMetadata} (h : EncodableEntry entry) :
    Readable curl true entry (PercentEncoding.encode entry.name)
      (PercentEncoding.encode entry.value) := by
  have hgrow := PercentEncoding.length_encode_le entry.name
  have hgrow' := PercentEncoding.length_encode_le entry.value
  have hname : (PercentEncoding.encode entry.name).length < 765 := by
    have := h.name_length
    omega
  have hvalue : (PercentEncoding.encode entry.value).length < 3072 := by
    have := h.value_length
    omega
  exact
    { name_comma := PercentEncoding.notMem_encode (by decide) (by decide) _
      name_equals := PercentEncoding.notMem_encode (by decide) (by decide) _
      value_comma := PercentEncoding.notMem_encode (by decide) (by decide) _
      name_head := head_encode _
      value_head := head_encode _
      name_fits := hname
      value_fits := hvalue
      not_system := (isSystemMetaName_encode _).trans h.not_system
      name_stored := storedText_encode hcurl h.name_nul
      value_stored := storedText_encode hcurl h.value_nul
      name_nul := h.name_nul
      value_nul := h.value_nul
      name_length := lt_of_le_of_lt h.name_length (by decide)
      value_length := lt_of_le_of_lt h.value_length (by decide) }

/-- **UTF-8-mode round trip.**  The header value written for at most 127
entries with any NUL-free names and values that fit is read back into an array
of 127 slots as exactly these entries in order; no entry, no header. -/
theorem utf8_metadata_round_trip {curl : Curl} (hcurl : curl.Documented) (listable : Bool)
    {entries : List AtmosMetadata} (request : RestRequest) {slots : List MetadataSlot}
    (hcount : entries.length ≤ 127) (hentries : ∀ e ∈ entries, EncodableEntry e)
    (hslots : slots.length = atmosMetaCountMax) :
    (entries = [] → setMetadataHeader curl entries listable true request = some request) ∧
    (entries ≠ [] → ∃ value, setMetadataHeader curl entries listable true request =
        some (request.addHeader (metadataHeaderName listable ++ bytes ": " ++ value)) ∧
      ReadsBack curl true value entries slots) := by
  constructor
  · rintro rfl
    rfl
  · intro hne
    have hkept : ∀ e ∈ entries, isWritten true e = true := fun e _ => rfl
    have htext : ∀ e ∈ entries, metadataEntry curl true e =
        some (PercentEncoding.encode e.name ++ equals :: PercentEncoding.encode e.value) := by
      intro e _
      simp [metadataEntry, hcurl.escape]
    refine ⟨_, setMetadataHeader_eq hne hkept htext listable request, ?_⟩
    exact readsBack_intercalate hne (fun e he => (hentries e he).readable hcurl)
      (hcount.trans (by rw [hslots]))

/-- Delimiters, a newline, a leading space, a percent sign and non-ASCII bytes. -/
private def encodableEntries : List AtmosMetadata :=
  [⟨bytes " a=b,c", bytes "100%\n"⟩, ⟨bytes "größe", []⟩]

theorem utf8_metadata_round_trip_two :
    ∃ value, setMetadataHeader Curl.standard encodableEntries false true
        (RestRequest.init (bytes "/rest/objects") .post) =
      some ((RestRequest.init (bytes "/rest/objects") .post).addHeader
        (metadataHeaderName false ++ bytes ": " ++ value)) ∧
      ReadsBack Curl.standard true value encodableEntries zeroedSlots := by
  have hencodable : ∀ e ∈ encodableEntries, EncodableEntry e := by
    intro e he
    simp only [encodableEntries, List.mem_cons, List.not_mem_nil, or_false] at he
    rcases he with rfl | rfl <;> constructor <;> decide
  exact (utf8_metadata_round_trip Curl.standard_documented false _ (by decide) hencodable
    List.length_replicate).2 (by decide)

/-! ## Skipped entries -/

/-- The texts of the entries that pass the character check, in order. -/
def passingTexts (entries : List AtmosMetadata) : List CStr :=
  (entries.filter (isWritten false)).map fun e => e.name ++ equals :: e.value

/-- A header value that shows these texts and nothing of an entry that was
skipped. -/
structure LeavesNoTrace (value : CStr) (texts : List CStr) : Prop where
  joined : value = [comma].intercalate texts
  no_leading : value.head? ≠ some comma
  no_trailing : value.getLast? ≠ some comma
  no_doubled : ¬ [comma, comma] <:+: value
  /-- The parser takes a value apart at its commas. -/
  pieces : (value.splitOn comma).length = texts.length

/-- A text that passes the check is not empty and has no comma. -/
theorem passingTexts_shape {entries : List AtmosMetadata} {text : CStr}
    (h : text ∈ passingTexts entries) : text ≠ [] ∧ comma ∉ text := by
  obtain ⟨e, he, rfl⟩ := List.mem_map.mp h
  have hwritten := (List.mem_filter.mp he).2
  simp only [isWritten, Bool.false_or, Bool.not_eq_true', Bool.or_eq_false_iff] at hwritten
  obtain ⟨hname, -, -⟩ := ne_of_metaCharCheck hwritten.1
  obtain ⟨hvalue, -, -⟩ := ne_of_metaCharCheck hwritten.2
  have hequals : comma ≠ equals := by decide
  refine ⟨by simp, ?_⟩
  rw [List.mem_append, List.mem_cons]
  rintro (hmem | heq | hmem)
  · exact hname hmem
  · exact hequals heq
  · exact hvalue hmem

/-- A join of such texts shows nothing else. -/
theorem leavesNoTrace_intercalate {texts : List CStr} (hne : texts ≠ [])
    (htexts : ∀ text ∈ texts, text ≠ [] ∧ comma ∉ text) :
    LeavesNoTrace ([comma].intercalate texts) texts := by
  have hsplit := List.splitOn_intercalate comma (fun text h => (htexts text h).2) hne
  have hfull : [] ∉ ([comma].intercalate texts).splitOn comma := by
    rw [hsplit]
    exact fun hmem => (htexts [] hmem).1 rfl
  obtain ⟨hhead, hlast, hdoubled⟩ := sep_isolated hfull
  exact ⟨rfl, hhead, hlast, hdoubled, congrArg List.length hsplit⟩

/-- **Skipped metadata leaves no trace** exactly where the first entry of the
list passes the check.  Where it is skipped, the text of the header starts with
a comma, or is empty if every entry is skipped. -/
theorem skipped_metadata_traceless_iff (curl : Curl) (listable : Bool) (request : RestRequest) :
    setMetadataHeader curl [] listable false request = some request ∧
    ∀ (first : AtmosMetadata) (rest : List AtmosMetadata), ∃ value,
      setMetadataHeader curl (first :: rest) listable false request =
        some (request.addHeader (headerLine (metadataHeaderName listable) value)) ∧
      (LeavesNoTrace value (passingTexts (first :: rest)) ↔ isWritten false first = true) ∧
      (value = [comma].intercalate (passingTexts (first :: rest)) ↔
        (isWritten false first = true ∨ passingTexts rest = [])) := by
  refine ⟨rfl, fun first rest => ?_⟩
  have hloop := @metadataLoop_cons curl false (fun e => e.name ++ equals :: e.value) first rest
    (fun e _ => by simp [metadataEntry]) (metadataHeaderName listable ++ bytes ": ")
  have hadded : setMetadataHeader curl (first :: rest) listable false request =
      some (request.addHeader (headerLine (metadataHeaderName listable)
        ([comma].intercalate ((if isWritten false first = true then
          first.name ++ equals :: first.value else []) :: passingTexts rest)))) := by
    rw [setMetadataHeader, if_neg (by simp)]
    simp only [hloop]
    rfl
  refine ⟨_, hadded, ?_⟩
  by_cases hfirst : isWritten false first = true
  · have htexts : passingTexts (first :: rest) =
        (first.name ++ equals :: first.value) :: passingTexts rest := by
      rw [passingTexts, List.filter_cons_of_pos hfirst]
      rfl
    have hshape : ∀ text ∈ passingTexts (first :: rest), text ≠ [] ∧ comma ∉ text :=
      fun _ => passingTexts_shape
    rw [htexts] at hshape
    rw [if_pos hfirst, htexts]
    exact ⟨iff_of_true (leavesNoTrace_intercalate (List.cons_ne_nil _ _) hshape) hfirst,
      iff_of_true rfl (Or.inl hfirst)⟩
  · have htexts : passingTexts (first :: rest) = passingTexts rest := by
      rw [passingTexts, List.filter_cons_of_neg hfirst]
      rfl
    rw [if_neg hfirst, htexts]
    cases hrest : passingTexts rest with
    | nil =>
        -- an empty value is still one piece
        refine ⟨iff_of_false (fun h => ?_) hfirst, iff_of_true rfl (Or.inr rfl)⟩
        exact absurd h.pieces (by decide)
    | cons text texts =>
        have hleading : ([comma].intercalate ([] :: text :: texts)).head? = some comma := by
          rw [List.intercalate_cons_cons]
          rfl
        refine ⟨iff_of_false (fun h => h.no_leading hleading) hfirst,
          iff_of_false (fun h => ?_) (not_or.mpr ⟨hfirst, List.cons_ne_nil _ _⟩)⟩
        have hshape : ∀ t ∈ text :: texts, t ≠ [] ∧ comma ∉ t := fun t ht =>
          passingTexts_shape (hrest ▸ ht)
        have hclean := leavesNoTrace_intercalate (List.cons_ne_nil text texts) hshape
        rw [h] at hleading
        exact hclean.no_leading hleading

/-- A comma in the name of the first entry. -/
private def commaFirst : List AtmosMetadata :=
  [⟨bytes "a,b", bytes "1"⟩, ⟨bytes "color", bytes "red"⟩]

theorem skipped_first_leaves_comma :
    setMetadataHeader Curl.standard commaFirst false false
        (RestRequest.init (bytes "/rest/objects") .post) =
      some ((RestRequest.init (bytes "/rest/objects") .post).addHeader
        (bytes "x-emc-meta: ,color=red")) ∧
    passingTexts commaFirst = [bytes "color=red"] ∧
    ¬ LeavesNoTrace (bytes ",color=red") [bytes "color=red"] :=
  ⟨by decide, by decide, fun h => h.no_leading (by decide)⟩

end Atmos
