import Atmos.ClientOperations

/-!
# What the filters add

A filter that passes a request on has appended header lines to it, and the
lines are the ones the fields of the request object ask for.  Each filter has
its own lemma, named after it.

* `operationFilter_appends` — the filters of an operation only append headers,
  under the names in `filterHeaderNames`;
* `run_operationFilters` — so do chains of them.
-/

namespace Atmos

open ByteText FixedMemory FilterChain

/-- A header before it is written as a line. -/
structure Header where
  name : CStr
  value : CStr
  deriving DecidableEq, Repr

/-- The line of a header. -/
def Header.line (h : Header) : CStr := headerLine h.name h.value

/-- A header that is there under a condition. -/
def headerIf (c : Prop) [Decidable c] (name value : CStr) : List Header :=
  if c then [⟨name, value⟩] else []

/-! ## Appending -/

namespace Exchange

/-- Append header lines. -/
def addHeaders (x : Exchange) (lines : List CStr) : Exchange :=
  x.setParent { x.request.parent with headers := x.headers ++ lines }

@[simp] theorem addHeaders_nil (x : Exchange) : x.addHeaders [] = x := by
  simp [addHeaders, setParent]

@[simp] theorem addHeaders_addHeaders (x : Exchange) (lines lines' : List CStr) :
    (x.addHeaders lines).addHeaders lines' = x.addHeaders (lines ++ lines') := by
  simp [addHeaders, setParent, headers]

@[simp] theorem headers_addHeaders (x : Exchange) (lines : List CStr) :
    (x.addHeaders lines).headers = x.headers ++ lines := rfl

@[simp] theorem fields_addHeaders (x : Exchange) (lines : List CStr) :
    (x.addHeaders lines).request.fields = x.request.fields := rfl

@[simp] theorem requestBody_addHeaders (x : Exchange) (lines : List CStr) :
    (x.addHeaders lines).request.parent.requestBody = x.request.parent.requestBody := rfl

theorem addHeader_eq (x : Exchange) (line : CStr) : x.addHeader line = x.addHeaders [line] :=
  rfl

theorem addHeader?_eq (x : Exchange) (line : Option CStr) :
    x.addHeader? line = x.addHeaders line.toList := by
  cases line with
  | none => simp [addHeader?]
  | some line => rfl

theorem addHeader?_if (x : Exchange) (c : Prop) [Decidable c] (name value : CStr) :
    x.addHeader? (if c then some (headerLine name value) else none) =
      x.addHeaders ((headerIf c name value).map Header.line) := by
  rw [addHeader?_eq, headerIf]
  split <;> rfl

end Exchange

/-- One exchange goes on to another with more header lines, for the same
resource and with nothing signed or sent. -/
structure Appends (x x' : Exchange) (lines : List CStr) : Prop where
  headers : x'.headers = x.headers ++ lines
  uri : x'.request.parent.uri = x.request.parent.uri
  method : x'.request.parent.method = x.request.parent.method
  trace : x'.trace = x.trace

theorem appends_addHeaders (x : Exchange) (lines : List CStr) :
    Appends x (x.addHeaders lines) lines :=
  ⟨rfl, rfl, rfl, rfl⟩

theorem Appends.refl (x : Exchange) : Appends x x [] :=
  ⟨(List.append_nil _).symm, rfl, rfl, rfl⟩

theorem Appends.trans {x x' x'' : Exchange} {lines lines' : List CStr}
    (h : Appends x x' lines) (h' : Appends x' x'' lines') :
    Appends x x'' (lines ++ lines') where
  headers := by rw [h'.headers, h.headers, List.append_assoc]
  uri := h'.uri.trans h.uri
  method := h'.method.trans h.method
  trace := h'.trace.trans h.trace

theorem appends_setChecksum (x : Exchange) (checksum : AtmosChecksum) :
    Appends x (x.setChecksum checksum) [] :=
  ⟨(List.append_nil _).symm, rfl, rfl, rfl⟩

theorem appends_setBody (x : Exchange) (body : RequestBody) : Appends x (x.setBody body) [] :=
  ⟨(List.append_nil _).symm, rfl, rfl, rfl⟩

/-- A buffer that is long enough for the name cuts the value only. -/
theorem snprintf_headerLine {size : Nat} {name : CStr} (h : name.length + 2 < size)
    (value : CStr) :
    snprintf size (headerLine name value) =
      headerLine name (value.take (size - 1 - (name.length + 2))) := by
  have hsep : (bytes ": ").length = 2 := rfl
  unfold snprintf headerLine
  rw [List.take_append, List.take_of_length_le (by rw [List.length_append, hsep]; omega),
    List.length_append, hsep]

/-- A value that fits the buffer is not cut. -/
theorem snprintf_headerLine_fits {size : Nat} {name value : CStr}
    (h : name.length + 2 + value.length < size) :
    snprintf size (headerLine name value) = headerLine name value := by
  apply snprintf_of_length_lt
  have hsep : (bytes ": ").length = 2 := rfl
  rw [headerLine, List.length_append, List.length_append, hsep]
  exact h

/-- The pool header is cut at the end of its buffer. -/
theorem poolHeader_eq (pool : CStr) :
    poolHeader pool = Header.line ⟨atmosHeaderPool, pool.take 1011⟩ :=
  snprintf_headerLine (by decide) pool

/-! ## Headers of an object -/

/-- The headers for access control entries. -/
def aclHeaders (acl : List AtmosAclEntry) : List Header :=
  headerIf (aclUsers acl ≠ []) atmosHeaderUserAcl (aclValue (aclUsers acl)) ++
  headerIf (aclOthers acl ≠ []) atmosHeaderGroupAcl (aclValue (aclOthers acl))

/-- The header of the mode. -/
def utf8Headers (env : Env) : List Header :=
  headerIf (env.atmos.enableUtf8Metadata = true) atmosHeaderUtf8 (bytes "true")

/-- The headers for metadata and access control. -/
def objectHeaders (env : Env) (metadata listableMeta : List AtmosMetadata)
    (acl : List AtmosAclEntry) : List Header :=
  let value := metadataValue env.curl env.atmos.enableUtf8Metadata
  headerIf (0 < metadata.length) atmosHeaderMeta (value metadata) ++
  headerIf (0 < listableMeta.length) atmosHeaderListableMeta (value listableMeta) ++
  utf8Headers env ++ aclHeaders acl

private theorem map_line_acl (name : CStr) (entries : List AtmosAclEntry) :
    (headerIf (entries ≠ []) name (aclValue entries)).map Header.line =
      (aclLine name entries).toList := by
  unfold headerIf aclLine
  by_cases hnil : entries = []
  · rw [if_neg (not_not.mpr hnil), if_pos hnil]
    rfl
  · rw [if_pos hnil, if_neg hnil]
    rfl

theorem addMetadata_eq_some {env : Env} {entries : List AtmosMetadata} {listable : Bool}
    {x x' : Exchange} (h : AtmosFilter.addMetadata env entries listable x = some x') :
    x' = x.addHeaders ((headerIf (0 < entries.length) (AtmosUtil.metadataHeaderName listable)
      (metadataValue env.curl env.atmos.enableUtf8Metadata entries)).map Header.line) := by
  unfold AtmosFilter.addMetadata at h
  unfold headerIf
  split at h
  · rename_i hne
    obtain ⟨request, hrequest, rfl⟩ := Option.map_eq_some_iff.mp h
    rw [if_pos hne, setMetadataHeader_eq_some hne hrequest]
    rfl
  · rename_i hempty
    rw [if_neg hempty, ← Option.some.inj h, List.map_nil, Exchange.addHeaders_nil]

theorem setAclHeader_headers {acl : List AtmosAclEntry} {request request' : RestRequest}
    (h : AtmosUtil.setAclHeader acl request = some request') :
    request' = { request with
      headers := request.headers ++ (aclHeaders acl).map Header.line } := by
  rw [setAclHeader_eq_some h, aclHeaders, List.map_append, map_line_acl, map_line_acl]

theorem addAcl_eq_some {acl : List AtmosAclEntry} {x x' : Exchange}
    (h : AtmosFilter.addAcl acl x = some x') :
    x' = x.addHeaders ((aclHeaders acl).map Header.line) := by
  unfold AtmosFilter.addAcl at h
  split at h
  · obtain ⟨request, hrequest, rfl⟩ := Option.map_eq_some_iff.mp h
    rw [setAclHeader_headers hrequest]
    rfl
  · rename_i hempty
    have hnil : acl = [] := List.length_eq_zero_iff.mp (by omega)
    rw [← Option.some.inj h, hnil]
    simp [aclHeaders, aclUsers, aclOthers, headerIf]

theorem addUtf8_eq (env : Env) (x : Exchange) :
    x.addHeader? (AtmosFilter.utf8Header env) =
      x.addHeaders ((utf8Headers env).map Header.line) :=
  x.addHeader?_if _ _ _

theorem addObjectHeaders_eq_some {env : Env} {metadata listableMeta : List AtmosMetadata}
    {acl : List AtmosAclEntry} {x x' : Exchange}
    (h : AtmosFilter.addObjectHeaders env metadata listableMeta acl x = some x') :
    x' = x.addHeaders ((objectHeaders env metadata listableMeta acl).map Header.line) := by
  unfold AtmosFilter.addObjectHeaders at h
  obtain ⟨y, hplain, h⟩ := Option.bind_eq_some_iff.mp h
  obtain ⟨z, hlisted, h⟩ := Option.bind_eq_some_iff.mp h
  rw [addAcl_eq_some h, addUtf8_eq, addMetadata_eq_some hlisted, addMetadata_eq_some hplain]
  simp [objectHeaders, AtmosUtil.metadataHeaderName]

/-! ## Checksums -/

/-- The checksum after the body has been fed to it. -/
def AtmosChecksum.fed (openssl : Openssl) (checksum : AtmosChecksum) :
    BodySource → AtmosChecksum
  | .array data => checksum.update openssl data
  | .file f dataSize => (checksum.updateFile openssl f dataSize).1

/-- The text of the state of a checksum. -/
def AtmosChecksum.stateText (openssl : Openssl) (checksum : AtmosChecksum) : CStr :=
  ((checksum.getState openssl).getD none).getD []

/-- The header for a checksum made before sending, if there is a body. -/
def wschecksumHeaders (openssl : Openssl) (body : Option RequestBody)
    (checksum : AtmosChecksum) : List Header :=
  body.toList.map fun body =>
    ⟨atmosHeaderWschecksum, (checksum.fed openssl body.source).stateText openssl⟩

/-- The header for a checksum made while sending. -/
def generateHeaders (checksum : AtmosChecksum) : List Header :=
  [⟨atmosHeaderGenerateChecksum, checksum.alg.algorithm.getD []⟩]

/-- The header for a checksum. -/
def checksumHeaders (openssl : Openssl) (body : Option RequestBody) :
    Option AtmosChecksum → List Header
  | none => []
  | some checksum =>
      match checksum.mode with
      | .wschecksum => wschecksumHeaders openssl body checksum
      | .generateChecksum => generateHeaders checksum

/-- A header that is not there yet. -/
def isMissing (headers : List CStr) (h : Header) : Bool :=
  (RestClient.getHeader headers h.name).isNone

theorem checksumBody_eq_next {openssl : Openssl} {checksum checksum' : AtmosChecksum}
    {body : RequestBody} {x x' : Exchange}
    (h : AtmosFilter.checksumBody openssl checksum body x = .next (x', checksum')) :
    checksum' = checksum.fed openssl body.source ∧ Appends x x' [] := by
  unfold AtmosFilter.checksumBody at h
  split at h
  · rename_i data hsource
    cases h
    rw [hsource]
    exact ⟨rfl, appends_setChecksum x _⟩
  · rename_i f dataSize hsource
    split at h
    · cases h
    · dsimp only at h
      split at h
      · cases h
      · cases h
        rw [hsource]
        have hread := (appends_setChecksum x (checksum.updateFile openssl f dataSize).1).trans
          (appends_setBody _ { body with
            source := .file (checksum.updateFile openssl f dataSize).2 dataSize })
        exact ⟨rfl, hread.trans (appends_setBody _ _)⟩

theorem wschecksum_eq_next {env : Env} {checksum : AtmosChecksum} {x x' : Exchange}
    (h : AtmosFilter.wschecksum env checksum x = some (.next x')) :
    Appends x x' ((wschecksumHeaders env.openssl x.request.parent.requestBody
      checksum).map Header.line) := by
  unfold AtmosFilter.wschecksum at h
  unfold wschecksumHeaders
  split at h
  · rename_i hbody
    cases h
    rw [hbody]
    exact Appends.refl x
  · rename_i body hbody
    rw [hbody]
    split at h
    · cases h
    · rename_i y fed hfed
      obtain ⟨rfl, hfeed⟩ := checksumBody_eq_next hfed
      obtain ⟨state, hstate, h⟩ := Option.bind_eq_some_iff.mp h
      cases state with
      | none => cases h
      | some state =>
          cases h
          obtain ⟨-, -, -, -, -, hlength⟩ := AtmosChecksum.getState_eq_some env.openssl hstate
          have hname : atmosHeaderWschecksum.length = 16 := rfl
          have hsize : atmosSimpleHeaderMax = 255 := rfl
          rw [snprintf_headerLine_fits (by omega), Exchange.addHeader_eq]
          have hall := hfeed.trans (appends_addHeaders y
            [headerLine atmosHeaderWschecksum state])
          simpa [AtmosChecksum.stateText, hstate, Header.line] using hall

theorem generateChecksum_eq_next {env : Env} {checksum : AtmosChecksum} {x x' : Exchange}
    (h : AtmosFilter.generateChecksum env checksum x = some (.next x')) :
    Appends x x' ((generateHeaders checksum).map Header.line) := by
  unfold AtmosFilter.generateChecksum at h
  obtain ⟨algorithm, halgorithm, h⟩ := Option.bind_eq_some_iff.mp h
  have hlength : algorithm.length ≤ 4 := AtmosChecksumAlg.length_algorithm_le halgorithm
  have hname : atmosHeaderGenerateChecksum.length = 23 := rfl
  have hsize : atmosSimpleHeaderMax = 255 := rfl
  rw [snprintf_headerLine_fits (by omega)] at h
  have hline := appends_addHeaders x [headerLine atmosHeaderGenerateChecksum algorithm]
  unfold generateHeaders
  rw [halgorithm]
  dsimp only at h
  split at h
  · cases h
    exact hline
  · split at h
    · cases h
      exact hline.trans (appends_setBody _ _)
    · cases h
      exact hline.trans (appends_setChecksum _ _)

/-- The checksum header is added where it is missing. -/
theorem setChecksumHeader_eq_next {env : Env} {checksum : Option AtmosChecksum}
    {x x' : Exchange} (h : AtmosFilter.setChecksumHeader env checksum x = some (.next x')) :
    Appends x x' (((checksumHeaders env.openssl x.request.parent.requestBody checksum).filter
      (isMissing x.headers)).map Header.line) := by
  unfold AtmosFilter.setChecksumHeader at h
  split at h
  · cases h
    exact Appends.refl x
  · rename_i checksum
    unfold checksumHeaders
    split at h
    · rename_i hmode
      -- the only header of this mode has the name that is looked up
      have hname : ∀ header ∈ wschecksumHeaders env.openssl x.request.parent.requestBody
          checksum, isMissing x.headers header =
            (env.rest.getHeaderValue x.headers atmosHeaderWschecksum).isNone := by
        intro header hmem
        obtain ⟨body, -, rfl⟩ := List.mem_map.mp hmem
        simp [isMissing, RestClient.getHeaderValue]
      simp only [hmode, List.filter_congr hname]
      split at h
      · rename_i hmissing
        simp only [hmissing, List.filter_true]
        exact wschecksum_eq_next h
      · rename_i hthere
        cases h
        simp only [hthere, List.filter_false]
        exact Appends.refl x
    · rename_i hmode
      have hname : ∀ header ∈ generateHeaders checksum, isMissing x.headers header =
          (RestClient.getHeader x.headers atmosHeaderGenerateChecksum).isNone := by
        intro header hmem
        rw [List.mem_singleton.mp hmem]
        rfl
      simp only [hmode, List.filter_congr hname]
      split at h
      · rename_i hmissing
        simp only [hmissing, List.filter_true]
        exact generateChecksum_eq_next h
      · rename_i hthere
        cases h
        simp only [hthere, List.filter_false]
        exact Appends.refl x

/-- The content type of a request without a body. -/
def contentTypeHeaders (body : Option RequestBody) : List Header :=
  headerIf (body.isNone = true) httpHeaderContentType (bytes "application/octet-stream")

theorem setWriteHeaders_eq_next {env : Env} {x x' : Exchange}
    (h : AtmosFilter.setWriteHeaders env x = some (.next x')) :
    ∃ req lines, x.request.fields.asWrite = some req ∧
      lines = (contentTypeHeaders x.request.parent.requestBody ++
        objectHeaders env req.metadata req.listableMeta req.acl).map Header.line ∧
      Appends x x' (lines ++ ((checksumHeaders env.openssl x.request.parent.requestBody
        req.checksum).filter (isMissing (x.headers ++ lines))).map Header.line) := by
  unfold AtmosFilter.setWriteHeaders at h
  obtain ⟨req, hreq, h⟩ := Option.bind_eq_some_iff.mp h
  dsimp only at h
  obtain ⟨y, hy, h⟩ := Option.bind_eq_some_iff.mp h
  have heq := addObjectHeaders_eq_some hy
  rw [Exchange.addHeader?_if, ← contentTypeHeaders, Exchange.addHeaders_addHeaders,
    ← List.map_append] at heq
  have hchecksum := setChecksumHeader_eq_next h
  rw [heq] at hchecksum
  exact ⟨req, _, hreq, rfl, (appends_addHeaders x _).trans hchecksum⟩

/-! ## Ranges -/

/-- The header for a range. -/
def rangeHeaders (range : ObjectRange) : List Header :=
  let rangeStart := decimal range.rangeStart.toInt
  let rangeEnd := decimal range.rangeEnd.toInt
  if range.rangeStart ≠ -1 ∧ range.rangeEnd ≠ -1 then
    [⟨httpHeaderRange, bytes "Bytes=" ++ (rangeStart ++ bytes "-" ++ rangeEnd)⟩]
  else if range.rangeStart ≠ -1 then
    [⟨httpHeaderRange, bytes "Bytes=" ++ (rangeStart ++ bytes "-")⟩]
  else headerIf (range.rangeEnd ≠ -1) httpHeaderRange (bytes "Bytes=" ++ (bytes "-" ++ rangeEnd))

/-- A range fits its buffer. -/
theorem addRange_eq (range : ObjectRange) (x : Exchange) :
    x.addHeader? (AtmosFilter.rangeHeader range) =
      x.addHeaders ((rangeHeaders range).map Header.line) := by
  have hstart := length_decimal_int64 range.rangeStart
  have hend := length_decimal_int64 range.rangeEnd
  have hname : httpHeaderRange.length = 5 := rfl
  have hunit : (bytes "Bytes=").length = 6 := rfl
  have hdash : (bytes "-").length = 1 := rfl
  have hfits : ∀ value : CStr, value.length ≤ 41 → AtmosFilter.rangeLine value =
      headerLine httpHeaderRange (bytes "Bytes=" ++ value) := by
    intro value hvalue
    have hsize : atmosSimpleHeaderMax = 255 := rfl
    apply snprintf_headerLine_fits
    rw [List.length_append]
    omega
  rw [Exchange.addHeader?_eq, AtmosFilter.rangeHeader, rangeHeaders]
  split
  · rw [hfits _ (by simp only [List.length_append]; omega)]
    rfl
  · split
    · rw [hfits _ (by rw [List.length_append]; omega)]
      rfl
    · unfold headerIf
      split
      · rw [hfits _ (by rw [List.length_append]; omega)]
        rfl
      · rfl

/-! ## Tags -/

/-- The text of a tag in a header: percent-encoded in utf8 mode, and left out
if that fails. -/
def tagText (curl : Curl) (utf8 : Bool) (tag : CStr) : CStr :=
  if utf8 then (curl.escapeString tag).getD [] else tag

/-- The value of a header with tags. -/
def tagsValue (curl : Curl) (utf8 : Bool) (tags : List CStr) : CStr :=
  (bytes ", ").intercalate (tags.map (tagText curl utf8))

/-- The header for some tags. -/
def tagsHeaders (curl : Curl) (utf8 : Bool) (tags : List CStr) : List Header :=
  headerIf (tags ≠ []) atmosHeaderTags (tagsValue curl utf8 tags)

theorem tagStep_eq (curl : Curl) (utf8 : Bool) (header tag : CStr) (i : Nat) :
    AtmosUtil.tagStep curl utf8 header (tag, i) =
      (if 0 < i then header ++ bytes ", " else header) ++ tagText curl utf8 tag := by
  unfold AtmosUtil.tagStep tagText
  cases utf8 with
  | false => rfl
  | true => cases curl.escapeString tag <;> simp

/-- From the second tag on a comma comes first. -/
theorem foldl_tagStep (curl : Curl) (utf8 : Bool) (tags : List CStr) (i : Nat)
    (header : CStr) :
    (tags.zipIdx (i + 1)).foldl (AtmosUtil.tagStep curl utf8) header =
      (bytes ", ").intercalate (header :: tags.map (tagText curl utf8)) := by
  rw [← foldl_glue]
  induction tags generalizing i header with
  | nil => rfl
  | cons tag tags ih =>
      rw [List.zipIdx_cons, List.foldl_cons, tagStep_eq, if_pos (Nat.succ_pos i), ih,
        List.map_cons, List.foldl_cons]

theorem setTagsHeader_headers (curl : Curl) (tags : List CStr) (utf8 : Bool)
    (request : RestRequest) :
    AtmosUtil.setTagsHeader curl tags utf8 request = { request with
      headers := request.headers ++ (tagsHeaders curl utf8 tags).map Header.line } := by
  cases tags with
  | nil => simp [AtmosUtil.setTagsHeader, tagsHeaders, headerIf]
  | cons tag tags =>
      have hloop : ((tag :: tags).zipIdx).foldl (AtmosUtil.tagStep curl utf8)
          (atmosHeaderTags ++ bytes ": ") =
          headerLine atmosHeaderTags (tagsValue curl utf8 (tag :: tags)) := by
        rw [List.zipIdx_cons, List.foldl_cons, tagStep_eq, if_neg (Nat.lt_irrefl 0),
          foldl_tagStep, ← append_intercalate]
        rfl
      rw [AtmosUtil.setTagsHeader, if_neg (by simp), hloop]
      rfl

theorem setTagsHeader_eq (curl : Curl) (tags : List CStr) (utf8 : Bool) (x : Exchange) :
    x.setParent (AtmosUtil.setTagsHeader curl tags utf8 x.request.parent) =
      x.addHeaders ((tagsHeaders curl utf8 tags).map Header.line) := by
  rw [setTagsHeader_headers]
  rfl

/-- The loop of the listing filters joins the texts of the tags. -/
theorem listedTagsHeader_eq {append : CStr → CStr → CStr} {text : CStr → CStr}
    (happend : ∀ header tag, append header tag = header ++ text tag) (name : CStr)
    (tags : List CStr) :
    AtmosUtil.listedTagsHeader append name tags =
      if tags ≠ [] then some (headerLine name ((bytes ", ").intercalate (tags.map text)))
      else none := by
  cases tags with
  | nil => rfl
  | cons tag tags =>
      have hloop : ∀ header, tags.foldl (fun header tag => append (header ++ bytes ", ") tag)
          header = (bytes ", ").intercalate (header :: tags.map text) := by
        intro header
        rw [← foldl_glue, List.foldl_map]
        congr
        funext header tag
        exact happend _ tag
      rw [if_pos (List.cons_ne_nil tag tags), AtmosUtil.listedTagsHeader, hloop, happend,
        ← append_intercalate]
      rfl

/-! ## Listing -/

/-- The headers for a page of results. -/
def pageHeaders (page : AtmosPaginatedRequest) : List Header :=
  headerIf (0 < page.token.length) atmosHeaderToken page.token ++
  headerIf (0 < page.limit) atmosHeaderLimit (decimal page.limit.toInt)

/-- The headers for the metadata of the entries. -/
def listedHeaders (env : Env) (listed : ListedMetadata) : List Header :=
  if listed.includeMeta then
    ⟨atmosHeaderIncludeMeta, bytes "true"⟩ ::
    (headerIf (listed.userTags ≠ []) atmosHeaderUserTags
      (tagsValue env.curl env.atmos.enableUtf8Metadata listed.userTags) ++
    headerIf (listed.systemTags ≠ []) atmosHeaderSystemTags
      ((bytes ", ").intercalate listed.systemTags))
  else []

/-- The header for a parent tag. -/
def parentTagHeaders (parentTag : ParentTag) : List Header :=
  headerIf (parentTag.text ≠ []) atmosHeaderTags parentTag.text

/-- A token and a limit fit their buffer. -/
theorem setPaginationHeaders_eq {x : Exchange} {page : AtmosPaginatedRequest}
    (hpage : x.request.fields.asPaginated = some page) :
    AtmosFilter.setPaginationHeaders x =
      some (.next (x.addHeaders ((pageHeaders page).map Header.line))) := by
  have htoken : page.token.length < 1024 := page.token_length
  have hlimit := length_decimal_int32 page.limit
  have hname : atmosHeaderToken.length = 11 := rfl
  have hname' : atmosHeaderLimit.length = 11 := rfl
  have hsize : AtmosFilter.paginationBufferSize = 1088 := rfl
  rw [AtmosFilter.setPaginationHeaders, hpage, Option.bind_eq_bind, Option.bind_some]
  dsimp only
  rw [snprintf_headerLine_fits (by omega), snprintf_headerLine_fits (by omega),
    Exchange.addHeader?_if, Exchange.addHeader?_if, Exchange.addHeaders_addHeaders, pageHeaders,
    List.map_append]

theorem setPaginationHeaders_eq_next {x x' : Exchange}
    (h : AtmosFilter.setPaginationHeaders x = some (.next x')) :
    ∃ page, x.request.fields.asPaginated = some page ∧
      x' = x.addHeaders ((pageHeaders page).map Header.line) := by
  obtain ⟨page, hpage, -⟩ := Option.bind_eq_some_iff.mp h
  rw [setPaginationHeaders_eq hpage] at h
  cases h
  exact ⟨page, hpage, rfl⟩

theorem addListedMetadata_eq (env : Env) (listed : ListedMetadata) (x : Exchange) :
    AtmosFilter.addListedMetadata env listed x =
      x.addHeaders ((listedHeaders env listed).map Header.line) := by
  unfold AtmosFilter.addListedMetadata listedHeaders
  split
  · have huser : ∀ header tag, (if env.atmos.enableUtf8Metadata = true then
        AtmosUtil.cstringAppendUtf8 env.curl else (· ++ ·)) header tag =
        header ++ tagText env.curl env.atmos.enableUtf8Metadata tag := by
      intro header tag
      unfold AtmosUtil.cstringAppendUtf8 tagText
      split <;> rfl
    have hsystem := @listedTagsHeader_eq (· ++ ·) id (fun _ _ => rfl)
      atmosHeaderSystemTags listed.systemTags
    rw [List.map_id] at hsystem
    dsimp only
    rw [listedTagsHeader_eq huser, hsystem, Exchange.addHeader?_if, Exchange.addHeader?_if,
      Exchange.addHeader_eq, Exchange.addHeaders_addHeaders, Exchange.addHeaders_addHeaders]
    simp [tagsValue, Header.line]
  · simp

/-! ## The filters of an operation -/

theorem updateObject_eq_next {x x' : Exchange}
    (h : AtmosFilter.updateObject x = some (.next x')) :
    ∃ write range, x.request.fields = .updateObject write range ∧
      x' = x.addHeaders ((rangeHeaders range).map Header.line) := by
  unfold AtmosFilter.updateObject at h
  split at h
  · rename_i write range hfields
    rw [addRange_eq] at h
    cases h
    exact ⟨write, range, hfields, rfl⟩
  · cases h

theorem setReadObjectHeaders_eq_next {env : Env} {x x' : Exchange}
    (h : AtmosFilter.setReadObjectHeaders env x = some (.next x')) :
    ∃ range, x.request.fields = .readObject range ∧
      x' = x.addHeaders ((rangeHeaders range ++ utf8Headers env).map Header.line) := by
  unfold AtmosFilter.setReadObjectHeaders at h
  split at h
  · rename_i range hfields
    rw [addRange_eq, addUtf8_eq, Exchange.addHeaders_addHeaders, ← List.map_append] at h
    cases h
    exact ⟨range, hfields, rfl⟩
  · cases h

theorem setGetUserMetaHeaders_eq_next {env : Env} {x x' : Exchange}
    (h : AtmosFilter.setGetUserMetaHeaders env x = some (.next x')) :
    ∃ tags, x.request.fields = .getUserMeta tags ∧ x' = x.addHeaders ((utf8Headers env ++
      tagsHeaders env.curl env.atmos.enableUtf8Metadata tags).map Header.line) := by
  unfold AtmosFilter.setGetUserMetaHeaders at h
  split at h
  · rename_i tags hfields
    dsimp only at h
    rw [setTagsHeader_eq, addUtf8_eq, Exchange.addHeaders_addHeaders, ← List.map_append] at h
    cases h
    exact ⟨tags, hfields, rfl⟩
  · cases h

theorem getSystemMetadata_eq_next {env : Env} {x x' : Exchange}
    (h : AtmosFilter.getSystemMetadata env x = some (.next x')) :
    ∃ tags, x.request.fields = .getSystemMeta tags ∧ x' = x.addHeaders ((utf8Headers env ++
      tagsHeaders env.curl false tags).map Header.line) := by
  unfold AtmosFilter.getSystemMetadata at h
  split at h
  · rename_i tags hfields
    dsimp only at h
    rw [setTagsHeader_eq, addUtf8_eq, Exchange.addHeaders_addHeaders, ← List.map_append] at h
    cases h
    exact ⟨tags, hfields, rfl⟩
  · cases h

theorem listDirectory_eq {env : Env} {x : Exchange} {page : AtmosPaginatedRequest}
    {listed : ListedMetadata} (hfields : x.request.fields = .listDirectory page listed) :
    AtmosFilter.listDirectory env x = some (.next
      (x.addHeaders ((utf8Headers env ++ listedHeaders env listed).map Header.line))) := by
  rw [AtmosFilter.listDirectory, hfields]
  dsimp only
  rw [addListedMetadata_eq, addUtf8_eq, Exchange.addHeaders_addHeaders, ← List.map_append]

theorem listDirectory_eq_next {env : Env} {x x' : Exchange}
    (h : AtmosFilter.listDirectory env x = some (.next x')) :
    ∃ page listed, x.request.fields = .listDirectory page listed ∧
      x' = x.addHeaders ((utf8Headers env ++ listedHeaders env listed).map Header.line) := by
  cases hfields : x.request.fields with
  | listDirectory page listed =>
      rw [listDirectory_eq hfields] at h
      cases h
      exact ⟨page, listed, rfl, rfl⟩
  | _ => simp [AtmosFilter.listDirectory, hfields] at h

theorem listObjects_eq_next {env : Env} {x x' : Exchange}
    (h : AtmosFilter.listObjects env x = some (.next x')) :
    ∃ page tag listed, x.request.fields = .listObjects page tag listed ∧
      x' = x.addHeaders ((utf8Headers env ++
        (tagsHeaders env.curl env.atmos.enableUtf8Metadata [tag] ++
        listedHeaders env listed)).map Header.line) := by
  unfold AtmosFilter.listObjects at h
  split at h
  · rename_i page tag listed hfields
    dsimp only at h
    split at h
    · rw [addListedMetadata_eq, setTagsHeader_eq, addUtf8_eq, Exchange.addHeaders_addHeaders,
        ← List.map_append, Exchange.addHeaders_addHeaders, ← List.map_append] at h
      cases h
      exact ⟨page, tag, listed, hfields, rfl⟩
    · cases h
  · cases h

/-- A parent tag fits its buffer. -/
theorem getListableTags_eq_next {env : Env} {x x' : Exchange}
    (h : AtmosFilter.getListableTags env x = some (.next x')) :
    ∃ page parentTag, x.request.fields = .getListableTags page parentTag ∧
      x' = x.addHeaders ((parentTagHeaders parentTag ++ utf8Headers env).map Header.line) := by
  unfold AtmosFilter.getListableTags at h
  split at h
  · rename_i page parentTag hfields
    have htag : parentTag.text.length < 1024 := parentTag.length_lt
    have hname : atmosHeaderTags.length = 10 := rfl
    have hsize : atmosPathMax = 1024 := rfl
    dsimp only at h
    rw [snprintf_headerLine_fits (by omega), Exchange.addHeader?_if, addUtf8_eq,
      Exchange.addHeaders_addHeaders, ← parentTagHeaders, ← List.map_append] at h
    cases h
    exact ⟨page, parentTag, hfields, rfl⟩
  · cases h

theorem parseCreateVersionResponse_eq_next {env : Env} {x x' : Exchange}
    (h : AtmosFilter.parseCreateVersionResponse env x = some (.next x')) :
    x' = x.addHeaders ((headerIf
      ((env.rest.getHeaderValue x.headers httpHeaderContentType).isNone = true)
      httpHeaderContentType (bytes "application/octet-stream")).map Header.line) := by
  unfold AtmosFilter.parseCreateVersionResponse at h
  dsimp only at h
  rw [Exchange.addHeader?_if] at h
  cases h
  rfl

/-- The header that names the object of an access token.  Its buffer may cut
the value. -/
def tokenObjectHeaders (token : AtmosCreateAccessTokenRequest) : List Header :=
  if 0 < token.objectId.length then [⟨atmosHeaderObjectid, token.objectId.take 238⟩]
  else headerIf (0 < token.path.length) atmosHeaderPath (token.path.take 242)

theorem createAccessToken_eq_next {env : Env} {x x' : Exchange}
    (h : AtmosFilter.createAccessToken env x = some (.next x')) :
    ∃ token, x.request.fields = .createAccessToken token ∧
      Appends x x' ((tokenObjectHeaders token ++
        objectHeaders env token.metadata token.listableMeta token.acl ++
        headerIf (token.policy = none) httpHeaderContentType (bytes "text/xml")).map
          Header.line) := by
  unfold AtmosFilter.createAccessToken at h
  split at h
  · rename_i token hfields
    refine ⟨token, hfields, ?_⟩
    dsimp only at h
    obtain ⟨y, hy, h⟩ := Option.bind_eq_some_iff.mp h
    have hobject : x.addHeader? (if 0 < token.objectId.length then
        some (snprintf atmosSimpleHeaderMax (headerLine atmosHeaderObjectid token.objectId))
        else if 0 < token.path.length then
          some (snprintf atmosSimpleHeaderMax (headerLine atmosHeaderPath token.path))
        else none) = x.addHeaders ((tokenObjectHeaders token).map Header.line) := by
      have hname : atmosHeaderObjectid.length = 14 := rfl
      have hname' : atmosHeaderPath.length = 10 := rfl
      have hsize : atmosSimpleHeaderMax = 255 := rfl
      rw [snprintf_headerLine (by omega), snprintf_headerLine (by omega), hname, hname',
        hsize, tokenObjectHeaders]
      split
      · rfl
      · exact x.addHeader?_if _ _ _
    rw [hobject] at hy
    have happends := appends_addHeaders x ((tokenObjectHeaders token ++
      objectHeaders env token.metadata token.listableMeta token.acl).map Header.line)
    rw [List.map_append, ← Exchange.addHeaders_addHeaders, ← addObjectHeaders_eq_some hy]
      at happends
    rw [List.map_append, List.map_append]
    split at h
    · rename_i hpolicy
      cases h
      rw [headerIf, if_pos hpolicy]
      exact happends.trans (appends_addHeaders y _)
    · rename_i policy hpolicy
      rw [headerIf, if_neg (by rw [hpolicy]; exact Option.some_ne_none policy)]
      split at h
      · cases h
      · cases h
        exact happends.trans (appends_setBody y _)
  · cases h

/-! ### Names -/

/-- The names of some headers are among `names`, in that order. -/
def Named (names : List CStr) (headers : List Header) : Prop :=
  (headers.map Header.name).Sublist names

theorem named_nil (names : List CStr) : Named names [] :=
  List.nil_sublist names

theorem named_singleton (name value : CStr) : Named [name] [⟨name, value⟩] :=
  List.Sublist.refl [name]

theorem named_headerIf (c : Prop) [Decidable c] (name value : CStr) :
    Named [name] (headerIf c name value) := by
  unfold headerIf
  split
  · exact named_singleton name value
  · exact named_nil [name]

theorem Named.append {names names' : List CStr} {headers headers' : List Header}
    (h : Named names headers) (h' : Named names' headers') :
    Named (names ++ names') (headers ++ headers') := by
  unfold Named
  rw [List.map_append]
  exact List.Sublist.append h h'

theorem Named.filter {names : List CStr} {headers : List Header} (h : Named names headers)
    (p : Header → Bool) : Named names (headers.filter p) :=
  (List.filter_sublist.map Header.name).trans h

theorem Named.mem {names : List CStr} {headers : List Header} (h : Named names headers)
    {header : Header} (hmem : header ∈ headers) : header.name ∈ names :=
  h.subset (List.mem_map_of_mem hmem)

theorem named_utf8Headers (env : Env) : Named [atmosHeaderUtf8] (utf8Headers env) :=
  named_headerIf _ _ _

theorem named_aclHeaders (acl : List AtmosAclEntry) :
    Named [atmosHeaderUserAcl, atmosHeaderGroupAcl] (aclHeaders acl) :=
  (named_headerIf _ _ _).append (named_headerIf _ _ _)

theorem named_objectHeaders (env : Env) (metadata listableMeta : List AtmosMetadata)
    (acl : List AtmosAclEntry) :
    Named [atmosHeaderMeta, atmosHeaderListableMeta, atmosHeaderUtf8, atmosHeaderUserAcl,
      atmosHeaderGroupAcl] (objectHeaders env metadata listableMeta acl) :=
  (((named_headerIf _ _ _).append (named_headerIf _ _ _)).append (named_utf8Headers env)).append
    (named_aclHeaders acl)

theorem named_checksumHeaders (openssl : Openssl) (body : Option RequestBody)
    (checksum : Option AtmosChecksum) :
    Named [atmosHeaderWschecksum, atmosHeaderGenerateChecksum]
      (checksumHeaders openssl body checksum) := by
  unfold checksumHeaders
  split
  · exact named_nil _
  · split
    · cases body with
      | none => exact named_nil _
      | some body => exact (named_singleton _ _).append (named_nil [_])
    · exact (named_nil [_]).append (named_singleton _ _)

theorem named_rangeHeaders (range : ObjectRange) :
    Named [httpHeaderRange] (rangeHeaders range) := by
  unfold rangeHeaders
  dsimp only
  split
  · exact named_singleton _ _
  · split
    · exact named_singleton _ _
    · exact named_headerIf _ _ _

theorem named_tagsHeaders (curl : Curl) (utf8 : Bool) (tags : List CStr) :
    Named [atmosHeaderTags] (tagsHeaders curl utf8 tags) :=
  named_headerIf _ _ _

theorem named_parentTagHeaders (parentTag : ParentTag) :
    Named [atmosHeaderTags] (parentTagHeaders parentTag) :=
  named_headerIf _ _ _

theorem named_listedHeaders (env : Env) (listed : ListedMetadata) :
    Named [atmosHeaderIncludeMeta, atmosHeaderUserTags, atmosHeaderSystemTags]
      (listedHeaders env listed) := by
  unfold listedHeaders
  split
  · exact (named_singleton _ _).append ((named_headerIf _ _ _).append (named_headerIf _ _ _))
  · exact named_nil _

theorem named_pageHeaders (page : AtmosPaginatedRequest) :
    Named [atmosHeaderToken, atmosHeaderLimit] (pageHeaders page) :=
  (named_headerIf _ _ _).append (named_headerIf _ _ _)

theorem named_tokenObjectHeaders (token : AtmosCreateAccessTokenRequest) :
    Named [atmosHeaderObjectid, atmosHeaderPath] (tokenObjectHeaders token) := by
  unfold tokenObjectHeaders
  split
  · exact (named_singleton _ _).append (named_nil [_])
  · exact (named_nil [_]).append (named_headerIf _ _ _)

/-! ### Lines under a name -/

/-- The header lines under a name. -/
def linesNamed (name : CStr) (headers : List CStr) : List CStr := headers.filter (nameIs name)

theorem linesNamed_append (name : CStr) (headers headers' : List CStr) :
    linesNamed name (headers ++ headers') = linesNamed name headers ++ linesNamed name headers' :=
  List.filter_append ..

theorem linesNamed_line {name : CStr} (hcolon : colon ∉ name) (value : CStr) :
    linesNamed name [name ++ colon :: value] = [name ++ colon :: value] := by
  apply List.filter_cons_of_pos
  rw [nameIs_line hcolon]
  exact decide_eq_true rfl

/-- A line under another name is not among them. -/
theorem linesNamed_other {name other : CStr} (hcolon : colon ∉ other)
    (hne : ByteText.lowercase other ≠ ByteText.lowercase name) (value : CStr) :
    linesNamed name [other ++ colon :: value] = [] := by
  rw [linesNamed, List.filter_cons_of_neg, List.filter_nil]
  rw [nameIs_line hcolon]
  simpa using hne

/-- Nor are the lines of other headers. -/
theorem linesNamed_map_line {name : CStr} {headers : List Header}
    (hother : ∀ h ∈ headers, colon ∉ h.name ∧
      ByteText.lowercase h.name ≠ ByteText.lowercase name) :
    linesNamed name (headers.map Header.line) = [] := by
  apply List.filter_eq_nil_iff.mpr
  intro line hmem
  obtain ⟨h, hh, rfl⟩ := List.mem_map.mp hmem
  obtain ⟨hcolon, hne⟩ := hother h hh
  rw [Header.line, nameIs_headerLine hcolon]
  simpa using hne

theorem Named.linesNamed_eq_nil {names : List CStr} {headers : List Header} {name : CStr}
    (h : Named names headers) (hother : ∀ other ∈ names, colon ∉ other ∧
      ByteText.lowercase other ≠ ByteText.lowercase name) :
    linesNamed name (headers.map Header.line) = [] :=
  linesNamed_map_line fun _ hmem => hother _ (h.mem hmem)

/-! ### Every filter -/

/-- The names of the headers the filters of an operation add. -/
def filterHeaderNames : List CStr :=
  [httpHeaderContentType, httpHeaderRange, atmosHeaderMeta, atmosHeaderListableMeta,
    atmosHeaderUtf8, atmosHeaderUserAcl, atmosHeaderGroupAcl, atmosHeaderWschecksum,
    atmosHeaderGenerateChecksum, atmosHeaderTags, atmosHeaderToken, atmosHeaderLimit,
    atmosHeaderIncludeMeta, atmosHeaderUserTags, atmosHeaderSystemTags, atmosHeaderObjectid,
    atmosHeaderPath]

/-- The default filters that change the request. -/
def RestFilter.isDefault : RestFilter → Bool
  | .executeCurlRequest | .signRequest | .setContentHeaders | .addUid | .addDate => true
  | _ => false

/-- Some header lines under names from the list are appended. -/
def AppendsFilterHeaders (x x' : Exchange) : Prop :=
  ∃ headers : List Header, (∀ h ∈ headers, h.name ∈ filterHeaderNames) ∧
    Appends x x' (headers.map Header.line)

theorem AppendsFilterHeaders.of_named {x x' : Exchange} {names : List CStr}
    {headers : List Header} (hnamed : Named names headers) (hnames : names ⊆ filterHeaderNames)
    (h : Appends x x' (headers.map Header.line)) : AppendsFilterHeaders x x' :=
  ⟨headers, fun _ hmem => hnames (hnamed.mem hmem), h⟩

/-- **The filters of an operation** only append headers, under names from the
list. -/
theorem operationFilter_appends {env : Env} {f : RestFilter} {x x' : Exchange}
    (hf : f.isDefault = false) (h : f.before env x = some (.next x')) :
    AppendsFilterHeaders x x' := by
  cases f with
  | executeCurlRequest | signRequest | setContentHeaders | addUid | addDate => cases hf
  | setWriteHeaders =>
      obtain ⟨req, lines, -, rfl, happends⟩ := setWriteHeaders_eq_next h
      rw [← List.map_append] at happends
      have hobject := named_objectHeaders env req.metadata req.listableMeta req.acl
      have hchecksum := named_checksumHeaders env.openssl x.request.parent.requestBody req.checksum
      exact .of_named (((named_headerIf _ _ _).append hobject).append (hchecksum.filter _))
        (by decide) happends
  | updateObject =>
      obtain ⟨write, range, -, rfl⟩ := updateObject_eq_next h
      exact .of_named (named_rangeHeaders range) (by decide) (appends_addHeaders x _)
  | setReadObjectHeaders =>
      obtain ⟨range, -, rfl⟩ := setReadObjectHeaders_eq_next h
      exact .of_named ((named_rangeHeaders range).append (named_utf8Headers env)) (by decide)
        (appends_addHeaders x _)
  | setGetUserMetaHeaders =>
      obtain ⟨tags, -, rfl⟩ := setGetUserMetaHeaders_eq_next h
      exact .of_named ((named_utf8Headers env).append (named_tagsHeaders _ _ tags)) (by decide)
        (appends_addHeaders x _)
  | getSystemMetadata =>
      obtain ⟨tags, -, rfl⟩ := getSystemMetadata_eq_next h
      exact .of_named ((named_utf8Headers env).append (named_tagsHeaders _ _ tags)) (by decide)
        (appends_addHeaders x _)
  | listDirectory =>
      obtain ⟨page, listed, -, rfl⟩ := listDirectory_eq_next h
      exact .of_named ((named_utf8Headers env).append (named_listedHeaders env listed))
        (by decide) (appends_addHeaders x _)
  | setPaginationHeaders =>
      obtain ⟨page, -, rfl⟩ := setPaginationHeaders_eq_next h
      exact .of_named (named_pageHeaders page) (by decide) (appends_addHeaders x _)
  | getListableTags =>
      obtain ⟨page, parentTag, -, rfl⟩ := getListableTags_eq_next h
      exact .of_named ((named_parentTagHeaders parentTag).append (named_utf8Headers env))
        (by decide) (appends_addHeaders x _)
  | listObjects =>
      obtain ⟨page, tag, listed, -, rfl⟩ := listObjects_eq_next h
      exact .of_named ((named_utf8Headers env).append ((named_tagsHeaders _ _ [tag]).append
        (named_listedHeaders env listed))) (by decide) (appends_addHeaders x _)
  | parseCreateVersionResponse =>
      rw [parseCreateVersionResponse_eq_next h]
      exact .of_named (named_headerIf _ _ _) (by decide) (appends_addHeaders x _)
  | createAccessToken =>
      obtain ⟨token, -, happends⟩ := createAccessToken_eq_next h
      have hobject := named_objectHeaders env token.metadata token.listableMeta token.acl
      exact .of_named (((named_tokenObjectHeaders token).append hobject).append
        (named_headerIf _ _ _)) (by decide) happends
  | parseAtmosError | parseServiceInfoResponse | parseCreateResponse
  | parseReadObjectResponse | parseGetUserMetaResponse | parseGetAclResponse
  | parseGetInfoResponse | listVersions | parseListAccessTokensResponse
  | parseGetTokenInfoResponse =>
      cases h
      exact .of_named (named_nil []) (by decide) (Appends.refl x)

theorem AppendsFilterHeaders.trans {x x' x'' : Exchange} (h : AppendsFilterHeaders x x')
    (h' : AppendsFilterHeaders x' x'') : AppendsFilterHeaders x x'' := by
  obtain ⟨headers, hnames, happends⟩ := h
  obtain ⟨headers', hnames', happends'⟩ := h'
  refine ⟨headers ++ headers', ?_, ?_⟩
  · intro header hmem
    rcases List.mem_append.mp hmem with hmem | hmem
    · exact hnames header hmem
    · exact hnames' header hmem
  · rw [List.map_append]
    exact happends.trans happends'

/-- A chain of such filters only appends headers too. -/
theorem run_operationFilters {env : Env} {filters : List RestFilter} {x x' : Exchange}
    (hown : ∀ f ∈ filters, f.isDefault = false)
    (h : run (filters.map (RestFilter.before env)) x = some (.next x')) :
    AppendsFilterHeaders x x' := by
  apply run_next_induction ?_ ?_ ?_ h
  · intro s
    exact .of_named (named_nil []) (by decide) (Appends.refl s)
  · intro s s' s'' hfirst hsecond
    exact hfirst.trans hsecond
  · intro f hf s s' hstep
    obtain ⟨filter, hfilter, rfl⟩ := List.mem_map.mp hf
    exact operationFilter_appends (hown filter hfilter) hstep

end Atmos
