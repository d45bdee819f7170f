import Atmos.SignatureCoverage
import Atmos.Utf8Mode

/-!
# The tag of a listing

A listing of objects keeps its tag in a field of `ATMOS_PATH_MAX` bytes, copies
it to a buffer of `ATMOS_META_NAME_MAX` bytes and gives that to a function that
measures it with `strlen`.  Where the copy has no terminator, the header gets
what is behind the buffer on the stack.

* `listObjectsOver_eq` — over any stack, a tag that fits is listed as in the
  model of the filter;
* `list_objects_tag_iff` — the tags that are asked for are those that fit.
-/

namespace Atmos

open ByteText FixedMemory FilterChain PercentEncoding

/-! ## The filter on its stack -/

namespace AtmosFilter

/-- What `strlen` finds at `tagbuf`, given the bytes behind it on the stack. -/
def tagbufText (behind : List UInt8) (tag : CStr) : Option CStr :=
  readCStr (strncpy tag atmosMetaNameMax ++ behind)

/-- `AtmosFilter_list_objects`, given the bytes behind `tagbuf` on the stack; no
result if there is no terminator among them either. -/
def listObjectsOver (behind : List UInt8) (env : Env) (x : Exchange) :
    Option (Step Exchange Exchange) :=
  match x.request.fields with
  | .listObjects _ tag listed =>
      let x := x.addHeader? (utf8Header env)
      (tagbufText behind tag).map fun tagbuf =>
        let x := x.setParent (AtmosUtil.setTagsHeader env.curl [tagbuf]
          env.atmos.enableUtf8Metadata x.request.parent)
        .next (addListedMetadata env listed x)
  | _ => none

/-- A tag that fits is read back. -/
theorem tagbufText_of_fits {tag : CStr} (hnul : 0 ∉ tag) (h : tag.length < atmosMetaNameMax)
    (behind : List UInt8) : tagbufText behind tag = some tag :=
  readCStr_strncpy_append hnul h behind

/-- A tag that does not is cut off, and goes on behind the buffer. -/
theorem tagbufText_of_long {tag : CStr} (hnul : 0 ∉ tag) (h : atmosMetaNameMax ≤ tag.length)
    {rest : CStr} (hrest : 0 ∉ rest) (above : List UInt8) :
    tagbufText (rest ++ 0 :: above) tag = some (tag.take atmosMetaNameMax ++ rest) := by
  have hcopy : strncpy tag atmosMetaNameMax = tag.take atmosMetaNameMax := by
    rw [strncpy, Nat.sub_eq_zero_of_le h, List.replicate_zero, List.append_nil]
  have hjoined : (0 : UInt8) ∉ tag.take atmosMetaNameMax ++ rest := by
    rw [List.mem_append]
    exact fun hmem => hmem.elim (fun hmem => hnul (List.mem_of_mem_take hmem)) hrest
  rw [tagbufText, hcopy, ← List.append_assoc, readCStr_append, takeWhile_ne_zero hjoined]

/-- **The two models agree** on a tag that fits. -/
theorem listObjectsOver_eq {env : Env} {x : Exchange} {page : AtmosPaginatedRequest} {tag : CStr}
    {listed : ListedMetadata} (hfields : x.request.fields = .listObjects page tag listed)
    (hnul : 0 ∉ tag) (h : tag.length < atmosMetaNameMax) (behind : List UInt8) :
    listObjectsOver behind env x = listObjects env x := by
  unfold listObjectsOver listObjects
  rw [hfields]
  dsimp only
  rw [tagbufText_of_fits hnul h, if_pos h, Option.map_some]

/-- **The header for the tag** has what is found at `tagbuf`. -/
theorem listObjectsOver_eq_next (env : Env) {x : Exchange} {page : AtmosPaginatedRequest}
    {tag tagbuf : CStr} {listed : ListedMetadata}
    (hfields : x.request.fields = .listObjects page tag listed) {behind : List UInt8}
    (hread : tagbufText behind tag = some tagbuf) :
    ∃ x', listObjectsOver behind env x = some (.next x') ∧
      linesNamed atmosHeaderTags x'.headers = linesNamed atmosHeaderTags x.headers ++
        [headerLine atmosHeaderTags (tagText env.curl env.atmos.enableUtf8Metadata tagbuf)] := by
  have hnext : listObjectsOver behind env x = some (.next (x.addHeaders ((utf8Headers env ++
      (tagsHeaders env.curl env.atmos.enableUtf8Metadata [tagbuf] ++
      listedHeaders env listed)).map Header.line))) := by
    unfold listObjectsOver
    rw [hfields]
    dsimp only
    rw [hread, Option.map_some, addListedMetadata_eq, setTagsHeader_eq, addUtf8_eq,
      Exchange.addHeaders_addHeaders, ← List.map_append, Exchange.addHeaders_addHeaders,
      ← List.map_append]
  have hvalue : tagsValue env.curl env.atmos.enableUtf8Metadata [tagbuf] =
      tagText env.curl env.atmos.enableUtf8Metadata tagbuf := by
    rw [tagsValue, List.map_singleton, List.intercalate_singleton]
  refine ⟨_, hnext, ?_⟩
  rw [Exchange.headers_addHeaders, linesNamed_append, linesNamed_map_append, linesNamed_map_append,
    linesNamed_tagsHeaders _ _ (List.cons_ne_nil tagbuf []), hvalue,
    (linesNamed_listedHeaders listed).2, List.append_nil,
    (named_utf8Headers env).linesNamed_eq_nil (by decide), List.nil_append]

end AtmosFilter

/-! ## The tag that is asked for -/

/-- The filter adds one header for tags, and its value is the whole tag, whatever
is on the stack up to a terminator. -/
def AsksForTag (env : Env) (tag : CStr) (x : Exchange) : Prop :=
  ∀ behind : List UInt8, 0 ∈ behind →
    ∃ x' value, AtmosFilter.listObjectsOver behind env x = some (.next x') ∧
      linesNamed atmosHeaderTags x'.headers =
        linesNamed atmosHeaderTags x.headers ++ [headerLine atmosHeaderTags value] ∧
      (if env.atmos.enableUtf8Metadata then decode value else value) = tag

/-- Encoded or not, a tag is read back from its text. -/
theorem read_tagText {env : Env} (hcurl : env.curl.Documented) {tag : CStr} (huncut : Uncut tag) :
    (if env.atmos.enableUtf8Metadata then
      decode (tagText env.curl env.atmos.enableUtf8Metadata tag)
    else tagText env.curl env.atmos.enableUtf8Metadata tag) = tag := by
  cases env.atmos.enableUtf8Metadata with
  | false => rfl
  | true =>
      rw [if_pos rfl, tagText, if_pos rfl, hcurl.escapeString_getD, escapedText_of_uncut huncut]
      exact decode_encode tag

/-- What is asked for is what is found at `tagbuf`. -/
theorem tagbufText_of_asksForTag {env : Env} (hcurl : env.curl.Documented) {tag : CStr}
    {x : Exchange} {page : AtmosPaginatedRequest} {listed : ListedMetadata}
    (hfields : x.request.fields = .listObjects page tag listed) (hasks : AsksForTag env tag x)
    {behind : List UInt8} (hbehind : 0 ∈ behind) {tagbuf : CStr}
    (hread : AtmosFilter.tagbufText behind tag = some tagbuf) (huncut : Uncut tagbuf) :
    tagbuf = tag := by
  obtain ⟨x', value, hnext, hlines, hvalue⟩ := hasks behind hbehind
  obtain ⟨y, hnext', hlines'⟩ :=
    AtmosFilter.listObjectsOver_eq_next env hfields hread
  rw [hnext] at hnext'
  cases hnext'
  rw [hlines] at hlines'
  have hline := (List.cons.inj (List.append_cancel_left hlines')).1
  rw [← headerLine_injective _ hline.symm, read_tagText hcurl huncut] at hvalue
  exact hvalue

/-- A tag that does not fit is not asked for: it is cut off, or goes on with what
is on the stack. -/
theorem not_asksForTag_of_long {env : Env} (hcurl : env.curl.Documented) {tag : CStr}
    (hnul : 0 ∉ tag) {x : Exchange} {page : AtmosPaginatedRequest} {listed : ListedMetadata}
    (hfields : x.request.fields = .listObjects page tag listed)
    (hlong : atmosMetaNameMax ≤ tag.length) : ¬ AsksForTag env tag x := by
  intro hasks
  have hread : ∀ rest : CStr, 0 ∉ rest → rest.length ≤ 1 →
      tag.take atmosMetaNameMax ++ rest = tag := by
    intro rest hrest hshort
    have hname : atmosMetaNameMax = 255 := rfl
    have huncut : Uncut (tag.take atmosMetaNameMax ++ rest) := by
      apply uncut_of_length_lt
      rw [List.length_append, List.length_take]
      omega
    exact tagbufText_of_asksForTag hcurl hfields hasks
      (List.mem_append_right rest List.mem_cons_self)
      (AtmosFilter.tagbufText_of_long hnul hlong hrest []) huncut
  -- the stack decides how the tag goes on, so it cannot be the rest of it twice
  have hempty := congrArg List.length (hread [] List.not_mem_nil (Nat.zero_le 1))
  have hletter := congrArg List.length (hread [65] (by decide) (Nat.le_refl 1))
  rw [List.length_append, List.length_nil] at hempty
  rw [List.length_append, List.length_singleton] at hletter
  omega

/-- **The tag of a listing.**  A tag of at most 1023 bytes is kept whole by a new
request; in both modes the filter asks for it exactly when it has at most 254. -/
theorem list_objects_tag_iff {env : Env} (hcurl : env.curl.Documented) {tag : CStr}
    (hnul : 0 ∉ tag) (hlength : tag.length ≤ 1023) :
    ∃ request, AtmosListObjectsRequest.init tag = some request ∧
      request.fields = .listObjects .zero tag .zero ∧
      (Block.strncpy tag : Block atmosPathMax).cstrAt 0 = some tag ∧
      ∀ (x : Exchange) (page : AtmosPaginatedRequest) (listed : ListedMetadata),
        x.request.fields = .listObjects page tag listed →
          (AsksForTag env tag x ↔ tag.length ≤ 254) := by
  have hpath : atmosPathMax = 1024 := rfl
  have hname : atmosMetaNameMax = 255 := rfl
  have hfield : (Block.strncpy tag : Block atmosPathMax).Holds tag :=
    (Block.strncpy_holds_iff hnul).mpr (by omega)
  rw [Block.Holds, List.take_of_length_le (by omega)] at hfield
  refine ⟨_, if_pos (by omega), rfl, hfield, ?_⟩
  intro x page listed hfields
  constructor
  · intro hasks
    by_contra hlong
    exact not_asksForTag_of_long hcurl hnul hfields (by omega) hasks
  · intro hfits behind _
    obtain ⟨x', hnext, hlines⟩ := AtmosFilter.listObjectsOver_eq_next env hfields
      (AtmosFilter.tagbufText_of_fits hnul (by omega) behind)
    have huncut : Uncut tag := uncut_of_length_lt (by omega)
    exact ⟨x', _, hnext, hlines, read_tagText hcurl huncut⟩

/-- A listing of a tag, before its filters. -/
def tagListing (tag : CStr) : Exchange where
  request :=
    { parent := RestRequest.init (bytes "/rest/objects") .get
      fields := .listObjects .zero tag .zero }
  response := .init .subclass
  trace := []

theorem list_objects_tag_iff_year :
    ∃ request, AtmosListObjectsRequest.init (bytes "fotos/2013") = some request ∧
      request.fields = .listObjects .zero (bytes "fotos/2013") .zero ∧
      (Block.strncpy (bytes "fotos/2013") : Block atmosPathMax).cstrAt 0 =
        some (bytes "fotos/2013") ∧
      ∀ (x : Exchange) (page : AtmosPaginatedRequest) (listed : ListedMetadata),
        x.request.fields = .listObjects page (bytes "fotos/2013") listed →
          (AsksForTag readerEnv (bytes "fotos/2013") x ↔ (bytes "fotos/2013").length ≤ 254) :=
  list_objects_tag_iff Curl.standard_documented (by decide) (by decide)

/-- **Foreign bytes and shorter tags.**  The header of a tag of 255 bytes goes on
with a letter from the stack; of a tag of 256 bytes, 255 are listed. -/
theorem long_tags_misread :
    ¬ AsksForTag readerEnv (List.replicate 255 97) (tagListing (List.replicate 255 97)) ∧
    (∃ x', AtmosFilter.listObjectsOver [98, 0] readerEnv (tagListing (List.replicate 255 97)) =
        some (.next x') ∧
      linesNamed atmosHeaderTags x'.headers =
        [headerLine atmosHeaderTags (List.replicate 255 97 ++ [98])]) ∧
    ∃ x', AtmosFilter.listObjectsOver [0] readerEnv (tagListing (List.replicate 256 97)) =
        some (.next x') ∧
      linesNamed atmosHeaderTags x'.headers =
        [headerLine atmosHeaderTags (List.replicate 255 97)] := by
  have hcurl : readerEnv.curl.Documented := Curl.standard_documented
  have hnul : ∀ n, (0 : UInt8) ∉ List.replicate n (97 : UInt8) := by
    intro n hmem
    exact absurd (List.eq_of_mem_replicate hmem) (by decide)
  have hlong : ∀ n, 255 ≤ n → atmosMetaNameMax ≤ (List.replicate n (97 : UInt8)).length := by
    intro n hn
    rwa [List.length_replicate]
  have hadds : ∀ n, 255 ≤ n → ∀ rest : CStr, 0 ∉ rest → (∀ b ∈ rest, unreserved b = true) →
      rest.length ≤ 1 → ∃ x', AtmosFilter.listObjectsOver (rest ++ [0]) readerEnv
          (tagListing (List.replicate n 97)) = some (.next x') ∧
        linesNamed atmosHeaderTags x'.headers =
          [headerLine atmosHeaderTags (List.replicate 255 97 ++ rest)] := by
    intro n hn rest hrest hplain hshort
    have hread := AtmosFilter.tagbufText_of_long (hnul n) (hlong n hn) hrest []
    rw [List.take_replicate, min_eq_left hn] at hread
    have huncut : Uncut (List.replicate 255 97 ++ rest) := by
      apply uncut_of_length_lt
      rw [List.length_append, List.length_replicate]
      omega
    have htext : tagText readerEnv.curl true (List.replicate 255 97 ++ rest) =
        List.replicate 255 97 ++ rest := by
      rw [tagText, if_pos rfl, hcurl.escapeString_getD, escapedText_of_uncut huncut]
      apply encode_of_unreserved
      intro b hb
      rcases List.mem_append.mp hb with hb | hb
      · rw [List.eq_of_mem_replicate hb]
        decide
      · exact hplain b hb
    have hfields : (tagListing (List.replicate n 97)).request.fields =
        .listObjects .zero (List.replicate n 97) .zero := rfl
    obtain ⟨x', hnext, hlines⟩ := AtmosFilter.listObjectsOver_eq_next readerEnv hfields hread
    refine ⟨x', hnext, hlines.trans ?_⟩
    exact congrArg (fun text => [headerLine atmosHeaderTags text]) htext
  have hshort := hadds 256 (by decide) [] List.not_mem_nil (by simp) (Nat.zero_le 1)
  rw [List.append_nil] at hshort
  have hplain : ∀ b ∈ [(98 : UInt8)], unreserved b = true :=
    List.forall_mem_singleton.mpr (by decide)
  exact ⟨not_asksForTag_of_long hcurl (hnul 255) rfl (hlong 255 le_rfl),
    hadds 255 le_rfl [98] (by decide) hplain (Nat.le_refl 1), hshort⟩

end Atmos
