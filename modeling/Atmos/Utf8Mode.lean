import Atmos.FieldLimits

/-!
# Texts in UTF-8 mode

A client in UTF-8 mode has to percent-encode the texts in its headers, and to
say so in the header `x-emc-utf8`.  The functions that build the headers decide
about the one and the other on their own.

* `sent_text` — the line a builder writes into the request that is sent;
* `utf8_uniform_iff` — some builders encode and declare all texts whose length
  is not cut as an `int`; some declare what they do not encode, which is right for
  unreserved texts only; a renaming does neither.
-/

namespace Atmos

open ByteText FixedMemory FilterChain QueryString PercentEncoding

/-- The builders of headers with tags, names of metadata or paths. -/
inductive TextBuilder where
  /-- the names of metadata to fetch -/
  | fetchedNames
  /-- the names of metadata to delete -/
  | deletedNames
  /-- the user tags of a listing -/
  | userTags
  /-- the system tags of a listing -/
  | systemTags
  /-- the tag of the objects to list -/
  | objectTag
  /-- the names of system metadata to fetch -/
  | systemNames
  /-- the parent of the tags to list -/
  | parentTag
  /-- the path of an access token -/
  | tokenPath
  /-- the destination of a renaming -/
  | destination
  deriving DecidableEq, Repr

namespace TextBuilder

/-- The name of the header. -/
def name : TextBuilder → CStr
  | fetchedNames | deletedNames | objectTag | systemNames | parentTag => atmosHeaderTags
  | userTags => atmosHeaderUserTags
  | systemTags => atmosHeaderSystemTags
  | tokenPath | destination => atmosHeaderPath

/-- The value of the header in UTF-8 mode. -/
def value (curl : Curl) (builder : TextBuilder) (texts : List CStr) : CStr :=
  match builder with
  | fetchedNames | deletedNames | userTags | objectTag => tagsValue curl true texts
  | systemTags | systemNames | parentTag => (bytes ", ").intercalate texts
  | tokenPath => ((bytes ", ").intercalate texts).take (HeaderField.room .tokenPath)
  | destination => ((bytes ", ").intercalate texts).take (HeaderField.room .destination)

/-- The line of the header. -/
def line (curl : Curl) (builder : TextBuilder) (texts : List CStr) : CStr :=
  headerLine builder.name (builder.value curl texts)

/-- An operation gives some texts to a builder, which writes them behind the
header lines that are there before. -/
inductive Supplied : TextBuilder → Operation → List CStr → List CStr → Prop
  | fetchedNames {request : AtmosRequest} {tags : List CStr}
      (hfields : request.fields = .getUserMeta tags) (htags : tags ≠ []) :
      Supplied .fetchedNames (.getUserMeta request) tags request.parent.headers
  | deletedNames (objectId : CStr) {names : List CStr} (hnames : names ≠ []) :
      Supplied .deletedNames (.deleteUserMeta objectId names) names []
  | deletedNamesNs (path : CStr) {names : List CStr} (hnames : names ≠ []) :
      Supplied .deletedNames (.deleteUserMetaNs path names) names []
  | deletedNamesKeypool (pool key : CStr) {names : List CStr} (hnames : names ≠ []) :
      Supplied .deletedNames (.deleteUserMetaKeypool pool key names) names []
  | directoryUserTags {request : AtmosRequest} {page : AtmosPaginatedRequest}
      {listed : ListedMetadata} (hfields : request.fields = .listDirectory page listed)
      (hmeta : listed.includeMeta = true) (htags : listed.userTags ≠ []) :
      Supplied .userTags (.listDirectory request) listed.userTags request.parent.headers
  | directorySystemTags {request : AtmosRequest} {page : AtmosPaginatedRequest}
      {listed : ListedMetadata} (hfields : request.fields = .listDirectory page listed)
      (hmeta : listed.includeMeta = true) (htags : listed.systemTags ≠ []) :
      Supplied .systemTags (.listDirectory request) listed.systemTags request.parent.headers
  | objectsUserTags {request : AtmosRequest} {page : AtmosPaginatedRequest} {tag : CStr}
      {listed : ListedMetadata} (hfields : request.fields = .listObjects page tag listed)
      (hmeta : listed.includeMeta = true) (htags : listed.userTags ≠ []) :
      Supplied .userTags (.listObjects request) listed.userTags request.parent.headers
  | objectsSystemTags {request : AtmosRequest} {page : AtmosPaginatedRequest} {tag : CStr}
      {listed : ListedMetadata} (hfields : request.fields = .listObjects page tag listed)
      (hmeta : listed.includeMeta = true) (htags : listed.systemTags ≠ []) :
      Supplied .systemTags (.listObjects request) listed.systemTags request.parent.headers
  | objectTag {request : AtmosRequest} {page : AtmosPaginatedRequest} {tag : CStr}
      {listed : ListedMetadata} (hfields : request.fields = .listObjects page tag listed) :
      Supplied .objectTag (.listObjects request) [tag] request.parent.headers
  | systemNames {request : AtmosRequest} {tags : List CStr}
      (hfields : request.fields = .getSystemMeta tags) (htags : tags ≠ []) :
      Supplied .systemNames (.getSystemMeta request) tags request.parent.headers
  | parentTag {request : AtmosRequest} {page : AtmosPaginatedRequest} {tag : ParentTag}
      (hfields : request.fields = .getListableTags page tag) (htag : tag.text ≠ []) :
      Supplied .parentTag (.getListableTags request) [tag.text] request.parent.headers
  | tokenPath {request : AtmosRequest} {token : AtmosCreateAccessTokenRequest}
      (hfields : request.fields = .createAccessToken token) (hobject : token.objectId = [])
      (hpath : token.path ≠ []) :
      Supplied .tokenPath (.createAccessToken request) [token.path] request.parent.headers
  | destination (source destination : CStr) (force : Bool) :
      Supplied .destination (.renameObject source destination force) [destination] []

end TextBuilder

/-! ## What is sent -/

/-- The line that declares the mode. -/
def utf8Line : CStr := headerLine atmosHeaderUtf8 (bytes "true")

/-- A call whose own filters add these headers. -/
def AddsHeaders (env : Env) (call : Call) (own : List Header) : Prop :=
  ∃ request filters, call = AtmosClient.call request filters ∧
    (∀ f ∈ filters, f.isDefault = false) ∧
    ∀ response y, run (filters.reverse.map (RestFilter.before env))
      { request, response, trace := [] } = some (.next y) →
      y.headers = request.parent.headers ++ own.map Header.line

/-- The lines of a name in what is sent, where it is not the name of a line of
the default filters. -/
theorem linesNamed_own {env : Env} {call : Call} {own : List Header} {name : CStr}
    (hcall : AddsHeaders env call own) (hemc : emcPrefix <+: ByteText.lowercase name)
    (hsignature : ByteText.lowercase atmosHeaderSignature ≠ ByteText.lowercase name)
    (huid : ByteText.lowercase atmosHeaderUid ≠ ByteText.lowercase name)
    {response : AtmosResponse} {x : Exchange} {sent : RestRequest}
    (hexecute : call.execute env response = some (.next x)) (hsent : Event.sent sent ∈ x.trace) :
    linesNamed name sent.headers = linesNamed name call.request.parent.headers ++
      linesNamed name (own.map Header.line) := by
  obtain ⟨request, filters, rfl, hfilters, hrun⟩ := hcall
  obtain ⟨y, hy, -, hlines⟩ := linesNamed_sent hemc hsignature hfilters hexecute hsent
  have hnone : linesNamed name [uidLine env] = [] := linesNamed_other (by decide) huid _
  rw [hlines, hrun response y hy, linesNamed_append, hnone, List.append_nil]
  rfl

/-! ### The headers of each operation -/

section Own

variable {env : Env} {request : AtmosRequest}

theorem addsHeaders_getUserMeta {tags : List CStr} (hfields : request.fields = .getUserMeta tags) :
    AddsHeaders env (AtmosClient.getUserMeta request)
      (utf8Headers env ++ tagsHeaders env.curl env.atmos.enableUtf8Metadata tags) := by
  refine ⟨request, _, rfl, by decide, ?_⟩
  intro response y hrun
  obtain ⟨z, hpass, hrun⟩ := run_cons_eq_next.mp hrun
  cases hpass
  obtain ⟨z, hset, hnil⟩ := run_cons_eq_next.mp hrun
  cases hnil
  obtain ⟨tags', hfields', rfl⟩ := setGetUserMetaHeaders_eq_next hset
  cases hfields.symm.trans hfields'
  rfl

theorem addsHeaders_getSystemMeta {tags : List CStr}
    (hfields : request.fields = .getSystemMeta tags) :
    AddsHeaders env (AtmosClient.getSystemMeta request)
      (utf8Headers env ++ tagsHeaders env.curl false tags) := by
  refine ⟨request, _, rfl, by decide, ?_⟩
  intro response y hrun
  obtain ⟨z, hset, hnil⟩ := run_cons_eq_next.mp hrun
  cases hnil
  obtain ⟨tags', hfields', rfl⟩ := getSystemMetadata_eq_next hset
  cases hfields.symm.trans hfields'
  rfl

theorem addsHeaders_getListableTags {page : AtmosPaginatedRequest} {tag : ParentTag}
    (hfields : request.fields = .getListableTags page tag) :
    AddsHeaders env (AtmosClient.getListableTags request)
      (parentTagHeaders tag ++ utf8Headers env ++ pageHeaders page) := by
  refine ⟨request, _, rfl, by decide, ?_⟩
  intro response y hrun
  obtain ⟨z, hlist, hrun⟩ := run_cons_eq_next.mp hrun
  obtain ⟨page', tag', hfields', rfl⟩ := getListableTags_eq_next hlist
  cases hfields.symm.trans hfields'
  obtain ⟨z, hpage, hnil⟩ := run_cons_eq_next.mp hrun
  cases hnil
  obtain ⟨page', hpaginated, rfl⟩ := setPaginationHeaders_eq_next hpage
  rw [Exchange.fields_addHeaders, hfields] at hpaginated
  cases hpaginated
  rw [Exchange.headers_addHeaders, Exchange.headers_addHeaders, List.append_assoc,
    ← List.map_append]

/-- The headers of a page come first. -/
theorem addsHeaders_of_page {page : AtmosPaginatedRequest} {filters : List RestFilter}
    {listing : RestFilter} {own : List Header} (hfilters : ∀ f ∈ filters, f.isDefault = false)
    (hreverse : filters.reverse = .setPaginationHeaders :: listing ::
      filters.reverse.drop 2)
    (hpage : request.fields.asPaginated = some page)
    (hown : ∀ x y, x.request.fields = request.fields →
      run ((listing :: filters.reverse.drop 2).map (RestFilter.before env)) x = some (.next y) →
      y.headers = x.headers ++ own.map Header.line) :
    AddsHeaders env (AtmosClient.call request filters) (pageHeaders page ++ own) := by
  refine ⟨request, filters, rfl, hfilters, ?_⟩
  intro response y hrun
  rw [hreverse] at hrun
  obtain ⟨z, hfirst, hrun⟩ := run_cons_eq_next.mp hrun
  obtain ⟨page', hpage', rfl⟩ := setPaginationHeaders_eq_next hfirst
  cases hpage.symm.trans hpage'
  rw [hown _ y rfl hrun, Exchange.headers_addHeaders, List.append_assoc, ← List.map_append]

theorem addsHeaders_listDirectory {page : AtmosPaginatedRequest} {listed : ListedMetadata}
    (hfields : request.fields = .listDirectory page listed) :
    AddsHeaders env (AtmosClient.listDirectory request)
      (pageHeaders page ++ (utf8Headers env ++ listedHeaders env listed)) := by
  refine addsHeaders_of_page (by decide) rfl (by rw [hfields]; rfl) ?_
  intro x y hx hrun
  obtain ⟨z, hlist, hrun⟩ := run_cons_eq_next.mp hrun
  obtain ⟨page', listed', hfields', rfl⟩ := listDirectory_eq_next hlist
  rw [hx] at hfields'
  cases hfields.symm.trans hfields'
  obtain ⟨z, hpass, hnil⟩ := run_cons_eq_next.mp hrun
  cases hpass
  cases hnil
  rfl

theorem addsHeaders_listObjects {page : AtmosPaginatedRequest} {tag : CStr}
    {listed : ListedMetadata} (hfields : request.fields = .listObjects page tag listed) :
    AddsHeaders env (AtmosClient.listObjects request) (pageHeaders page ++ (utf8Headers env ++
      (tagsHeaders env.curl env.atmos.enableUtf8Metadata [tag] ++ listedHeaders env listed))) := by
  refine addsHeaders_of_page (by decide) rfl (by rw [hfields]; rfl) ?_
  intro x y hx hrun
  obtain ⟨z, hlist, hnil⟩ := run_cons_eq_next.mp hrun
  cases hnil
  obtain ⟨page', tag', listed', hfields', rfl⟩ := listObjects_eq_next hlist
  rw [hx] at hfields'
  cases hfields.symm.trans hfields'
  rfl

theorem addsHeaders_createAccessToken {token : AtmosCreateAccessTokenRequest}
    (hfields : request.fields = .createAccessToken token) :
    AddsHeaders env (AtmosClient.createAccessToken request) (tokenObjectHeaders token ++
      objectHeaders env token.metadata token.listableMeta token.acl ++
      headerIf (token.policy = none) httpHeaderContentType (bytes "text/xml")) := by
  refine ⟨request, _, rfl, by decide, ?_⟩
  intro response y hrun
  obtain ⟨z, hset, hnil⟩ := run_cons_eq_next.mp hrun
  cases hnil
  obtain ⟨token', hfields', happends⟩ := createAccessToken_eq_next hset
  cases hfields.symm.trans hfields'
  exact happends.headers

/-! ### Lines of one name -/

/-- A header that is there has its line. -/
theorem linesNamed_headerIf {c : Prop} [Decidable c] (hc : c) {name : CStr}
    (hcolon : colon ∉ name) (value : CStr) :
    linesNamed name ((headerIf c name value).map Header.line) = [headerLine name value] := by
  rw [headerIf, if_pos hc, List.map_singleton, Header.line, headerLine_eq]
  exact linesNamed_line hcolon _

theorem linesNamed_map_append (name : CStr) (headers headers' : List Header) :
    linesNamed name ((headers ++ headers').map Header.line) =
      linesNamed name (headers.map Header.line) ++ linesNamed name (headers'.map Header.line) := by
  rw [List.map_append, linesNamed_append]

/-- Headers of other names do not matter. -/
theorem linesNamed_pageHeaders (page : AtmosPaginatedRequest) :
    linesNamed atmosHeaderUtf8 ((pageHeaders page).map Header.line) = [] ∧
      linesNamed atmosHeaderTags ((pageHeaders page).map Header.line) = [] ∧
      linesNamed atmosHeaderUserTags ((pageHeaders page).map Header.line) = [] ∧
      linesNamed atmosHeaderSystemTags ((pageHeaders page).map Header.line) = [] :=
  ⟨(named_pageHeaders page).linesNamed_eq_nil (by decide),
    (named_pageHeaders page).linesNamed_eq_nil (by decide),
    (named_pageHeaders page).linesNamed_eq_nil (by decide),
    (named_pageHeaders page).linesNamed_eq_nil (by decide)⟩

theorem linesNamed_listedHeaders (listed : ListedMetadata) :
    linesNamed atmosHeaderUtf8 ((listedHeaders env listed).map Header.line) = [] ∧
      linesNamed atmosHeaderTags ((listedHeaders env listed).map Header.line) = [] :=
  ⟨(named_listedHeaders env listed).linesNamed_eq_nil (by decide),
    (named_listedHeaders env listed).linesNamed_eq_nil (by decide)⟩

theorem linesNamed_tagsHeaders_other (curl : Curl) (utf8 : Bool) (tags : List CStr) :
    linesNamed atmosHeaderUtf8 ((tagsHeaders curl utf8 tags).map Header.line) = [] ∧
      linesNamed atmosHeaderUserTags ((tagsHeaders curl utf8 tags).map Header.line) = [] ∧
      linesNamed atmosHeaderSystemTags ((tagsHeaders curl utf8 tags).map Header.line) = [] :=
  ⟨(named_tagsHeaders _ _ _).linesNamed_eq_nil (by decide),
    (named_tagsHeaders _ _ _).linesNamed_eq_nil (by decide),
    (named_tagsHeaders _ _ _).linesNamed_eq_nil (by decide)⟩

/-- The header of the mode. -/
theorem linesNamed_utf8Headers (hutf8 : env.atmos.enableUtf8Metadata = true) :
    linesNamed atmosHeaderUtf8 ((utf8Headers env).map Header.line) = [utf8Line] ∧
      linesNamed atmosHeaderTags ((utf8Headers env).map Header.line) = [] ∧
      linesNamed atmosHeaderUserTags ((utf8Headers env).map Header.line) = [] ∧
      linesNamed atmosHeaderSystemTags ((utf8Headers env).map Header.line) = [] :=
  ⟨linesNamed_headerIf hutf8 (by decide) _, (named_utf8Headers env).linesNamed_eq_nil (by decide),
    (named_utf8Headers env).linesNamed_eq_nil (by decide),
    (named_utf8Headers env).linesNamed_eq_nil (by decide)⟩

theorem linesNamed_tagsHeaders (curl : Curl) (utf8 : Bool) {tags : List CStr} (htags : tags ≠ []) :
    linesNamed atmosHeaderTags ((tagsHeaders curl utf8 tags).map Header.line) =
      [headerLine atmosHeaderTags (tagsValue curl utf8 tags)] :=
  linesNamed_headerIf htags (by decide) _

/-- The headers of a listing with metadata, one by one. -/
theorem listedHeaders_eq {listed : ListedMetadata} (hmeta : listed.includeMeta = true) :
    listedHeaders env listed = [⟨atmosHeaderIncludeMeta, bytes "true"⟩] ++
      headerIf (listed.userTags ≠ []) atmosHeaderUserTags
        (tagsValue env.curl env.atmos.enableUtf8Metadata listed.userTags) ++
      headerIf (listed.systemTags ≠ []) atmosHeaderSystemTags
        ((bytes ", ").intercalate listed.systemTags) := by
  rw [listedHeaders, if_pos hmeta]
  rfl

theorem linesNamed_userTags {listed : ListedMetadata} (hmeta : listed.includeMeta = true)
    (htags : listed.userTags ≠ []) :
    linesNamed atmosHeaderUserTags ((listedHeaders env listed).map Header.line) =
      [headerLine atmosHeaderUserTags
        (tagsValue env.curl env.atmos.enableUtf8Metadata listed.userTags)] := by
  rw [listedHeaders_eq hmeta, linesNamed_map_append, linesNamed_map_append,
    (named_singleton _ _).linesNamed_eq_nil (by decide), linesNamed_headerIf htags (by decide),
    (named_headerIf _ _ _).linesNamed_eq_nil (by decide)]
  rfl

theorem linesNamed_systemTags {listed : ListedMetadata} (hmeta : listed.includeMeta = true)
    (htags : listed.systemTags ≠ []) :
    linesNamed atmosHeaderSystemTags ((listedHeaders env listed).map Header.line) =
      [headerLine atmosHeaderSystemTags ((bytes ", ").intercalate listed.systemTags)] := by
  rw [listedHeaders_eq hmeta, linesNamed_map_append, linesNamed_map_append,
    (named_singleton _ _).linesNamed_eq_nil (by decide),
    (named_headerIf _ _ _).linesNamed_eq_nil (by decide), linesNamed_headerIf htags (by decide)]
  rfl

/-- Names and tags that are encoded stand in one line. -/
theorem linesNamed_names (hutf8 : env.atmos.enableUtf8Metadata = true) {names : List CStr}
    (hne : names ≠ []) :
    linesNamed atmosHeaderTags ((utf8Headers env ++
        tagsHeaders env.curl env.atmos.enableUtf8Metadata names).map Header.line) =
      [headerLine atmosHeaderTags (tagsValue env.curl true names)] ∧
    linesNamed atmosHeaderUtf8 ((utf8Headers env ++
        tagsHeaders env.curl env.atmos.enableUtf8Metadata names).map Header.line) =
      [utf8Line] := by
  simp only [linesNamed_map_append, linesNamed_utf8Headers hutf8, linesNamed_tagsHeaders_other,
    linesNamed_tagsHeaders _ _ hne, hutf8, List.nil_append, List.append_nil, and_self]

/-- The headers of an object declare the mode. -/
theorem linesNamed_objectHeaders (hutf8 : env.atmos.enableUtf8Metadata = true)
    (metadata listableMeta : List AtmosMetadata) (acl : List AtmosAclEntry) :
    linesNamed atmosHeaderUtf8 ((objectHeaders env metadata listableMeta acl).map Header.line) =
      [utf8Line] := by
  have hmeta := (named_headerIf (0 < metadata.length) atmosHeaderMeta
    (metadataValue env.curl env.atmos.enableUtf8Metadata metadata)).append
      (named_headerIf (0 < listableMeta.length) atmosHeaderListableMeta
        (metadataValue env.curl env.atmos.enableUtf8Metadata listableMeta))
  rw [objectHeaders, linesNamed_map_append, linesNamed_map_append,
    hmeta.linesNamed_eq_nil (by decide), (named_aclHeaders acl).linesNamed_eq_nil (by decide),
    (linesNamed_utf8Headers hutf8).1]
  rfl

end Own

/-! ### All builders -/

/-- The headers behind the given ones in what is sent. -/
structure Sends (env : Env) (call : Call) (given : List CStr) (own : List Header) : Prop where
  lines : ∀ {name : CStr}, emcPrefix <+: ByteText.lowercase name →
    ByteText.lowercase atmosHeaderSignature ≠ ByteText.lowercase name →
    ByteText.lowercase atmosHeaderUid ≠ ByteText.lowercase name →
    ∀ {response : AtmosResponse} {x : Exchange} {sent : RestRequest},
      call.execute env response = some (.next x) → Event.sent sent ∈ x.trace →
      linesNamed name sent.headers = linesNamed name given ++ linesNamed name (own.map Header.line)

theorem AddsHeaders.sends {env : Env} {call : Call} {own : List Header}
    (h : AddsHeaders env call own) : Sends env call call.request.parent.headers own :=
  ⟨fun hemc hsignature huid _ _ _ hexecute hsent =>
    linesNamed_own h hemc hsignature huid hexecute hsent⟩

/-- A request that an operation makes itself has its headers from the start. -/
theorem sends_restRequest {env : Env} {request : RestRequest} {own : List Header}
    (hheaders : request.headers = own.map Header.line) :
    Sends env (AtmosClient.call (AtmosClient.restRequest request) []) [] own := by
  constructor
  intro name hemc hsignature huid response x sent hexecute hsent
  have hadds : AddsHeaders env (AtmosClient.call (AtmosClient.restRequest request) []) [] := by
    refine ⟨_, [], rfl, by decide, ?_⟩
    intro response y hrun
    cases hrun
    exact (List.append_nil _).symm
  rw [linesNamed_own hadds hemc hsignature huid hexecute hsent]
  change linesNamed name request.headers ++ [] = _
  rw [hheaders, List.append_nil]
  rfl

/-- The headers of the functions that delete names. -/
theorem headers_deletedMetaHeaders (env : Env) (names : List CStr) (uri : CStr) :
    (AtmosClient.deletedMetaHeaders env names (RestRequest.init uri .delete)).headers =
      (utf8Headers env ++ tagsHeaders env.curl env.atmos.enableUtf8Metadata names).map
        Header.line := by
  rw [deletedMetaHeaders_eq]
  rfl

/-- Without the mode, texts are joined as they are. -/
theorem tagsValue_plain (curl : Curl) (tags : List CStr) :
    tagsValue curl false tags = (bytes ", ").intercalate tags := by
  have htext : tagText curl false = id := rfl
  rw [tagsValue, htext, List.map_id]

/-- **What a builder writes**: the lines of an operation have one for the texts,
and one that declares the mode unless it is a renaming. -/
theorem supplied_sends {env : Env} (hutf8 : env.atmos.enableUtf8Metadata = true)
    {builder : TextBuilder} {op : Operation} {texts given : List CStr}
    (hsupplied : builder.Supplied op texts given) {call : Call} (hcall : op.call env = some call) :
    ∃ own, Sends env call given own ∧
      linesNamed builder.name (own.map Header.line) = [builder.line env.curl texts] ∧
      linesNamed atmosHeaderUtf8 (own.map Header.line) =
        if builder = .destination then [] else [utf8Line] := by
  cases hsupplied with
  | fetchedNames hfields htags =>
      cases hcall
      exact ⟨_, (addsHeaders_getUserMeta hfields).sends, linesNamed_names hutf8 htags⟩
  | deletedNames objectId hne =>
      cases hcall
      exact ⟨_, sends_restRequest (headers_deletedMetaHeaders env texts _),
        linesNamed_names hutf8 hne⟩
  | deletedNamesNs path hne =>
      cases hcall
      exact ⟨_, sends_restRequest (headers_deletedMetaHeaders env texts _),
        linesNamed_names hutf8 hne⟩
  | deletedNamesKeypool pool key hne =>
      cases hcall
      refine ⟨utf8Headers env ++ tagsHeaders env.curl env.atmos.enableUtf8Metadata texts ++
        [⟨atmosHeaderPool, pool.take 1011⟩], sends_restRequest ?_, ?_⟩
      · rw [RestRequest.addHeader_headers, headers_deletedMetaHeaders, poolHeader_eq]
        simp only [List.map_append, List.map_cons, List.map_nil]
      · have hpool : Named [atmosHeaderPool] [⟨atmosHeaderPool, pool.take 1011⟩] :=
          named_singleton _ _
        obtain ⟨htext, hmode⟩ := linesNamed_names hutf8 hne
        rw [linesNamed_map_append _ _ [_], linesNamed_map_append _ _ [_], TextBuilder.name, htext,
          hmode, hpool.linesNamed_eq_nil (by decide), hpool.linesNamed_eq_nil (by decide)]
        exact ⟨rfl, rfl⟩
  | directoryUserTags hfields hmeta htags =>
      cases hcall
      refine ⟨_, (addsHeaders_listDirectory hfields).sends, ?_⟩
      simp only [linesNamed_map_append, linesNamed_pageHeaders, linesNamed_utf8Headers hutf8,
        linesNamed_listedHeaders, List.nil_append, List.append_nil, TextBuilder.name,
        linesNamed_userTags hmeta htags, hutf8]
      exact ⟨rfl, rfl⟩
  | directorySystemTags hfields hmeta htags =>
      cases hcall
      refine ⟨_, (addsHeaders_listDirectory hfields).sends, ?_⟩
      simp only [linesNamed_map_append, linesNamed_pageHeaders, linesNamed_utf8Headers hutf8,
        linesNamed_listedHeaders, List.nil_append, List.append_nil, TextBuilder.name,
        linesNamed_systemTags hmeta htags]
      exact ⟨rfl, rfl⟩
  | objectsUserTags hfields hmeta htags =>
      cases hcall
      refine ⟨_, (addsHeaders_listObjects hfields).sends, ?_⟩
      simp only [linesNamed_map_append, linesNamed_pageHeaders, linesNamed_utf8Headers hutf8,
        linesNamed_listedHeaders, linesNamed_tagsHeaders_other, List.nil_append,
        List.append_nil, TextBuilder.name, linesNamed_userTags hmeta htags, hutf8]
      exact ⟨rfl, rfl⟩
  | objectsSystemTags hfields hmeta htags =>
      cases hcall
      refine ⟨_, (addsHeaders_listObjects hfields).sends, ?_⟩
      simp only [linesNamed_map_append, linesNamed_pageHeaders, linesNamed_utf8Headers hutf8,
        linesNamed_listedHeaders, linesNamed_tagsHeaders_other, List.nil_append,
        List.append_nil, TextBuilder.name, linesNamed_systemTags hmeta htags]
      exact ⟨rfl, rfl⟩
  | @objectTag request page tag listed hfields =>
      cases hcall
      refine ⟨_, (addsHeaders_listObjects hfields).sends, ?_⟩
      simp only [linesNamed_map_append, linesNamed_pageHeaders, linesNamed_utf8Headers hutf8,
        linesNamed_listedHeaders, linesNamed_tagsHeaders_other, List.nil_append,
        List.append_nil, TextBuilder.name, linesNamed_tagsHeaders _ _ (List.cons_ne_nil tag []),
        hutf8]
      exact ⟨rfl, rfl⟩
  | systemNames hfields htags =>
      cases hcall
      refine ⟨_, (addsHeaders_getSystemMeta hfields).sends, ?_⟩
      simp only [linesNamed_map_append, linesNamed_utf8Headers hutf8,
        linesNamed_tagsHeaders_other, List.nil_append, List.append_nil, TextBuilder.name,
        linesNamed_tagsHeaders _ _ htags, tagsValue_plain]
      exact ⟨rfl, rfl⟩
  | @parentTag request page tag hfields htag =>
      cases hcall
      refine ⟨_, (addsHeaders_getListableTags hfields).sends, ?_⟩
      have htext : linesNamed atmosHeaderTags ((parentTagHeaders tag).map Header.line) =
          [headerLine atmosHeaderTags tag.text] := linesNamed_headerIf htag (by decide) _
      have hmode : linesNamed atmosHeaderUtf8 ((parentTagHeaders tag).map Header.line) = [] :=
        (named_parentTagHeaders tag).linesNamed_eq_nil (by decide)
      simp only [linesNamed_map_append, linesNamed_pageHeaders, linesNamed_utf8Headers hutf8,
        htext, hmode, List.nil_append, List.append_nil, TextBuilder.name, TextBuilder.line,
        TextBuilder.value, List.intercalate_singleton]
      exact ⟨trivial, rfl⟩
  | @tokenPath request token hfields hobject hpath =>
      cases hcall
      refine ⟨_, (addsHeaders_createAccessToken hfields).sends, ?_, ?_⟩
      · rw [TextBuilder.name, linesNamed_tokenHeaders hobject hpath, HeaderField.written_eq,
          TextBuilder.line, TextBuilder.value, List.intercalate_singleton]
        rfl
      · rw [linesNamed_map_append, linesNamed_map_append, linesNamed_objectHeaders hutf8,
          (named_tokenObjectHeaders token).linesNamed_eq_nil (by decide),
          (named_headerIf _ _ _).linesNamed_eq_nil (by decide)]
        rfl
  | destination source destination force =>
      cases hcall
      have hline : HeaderField.written .destination destination =
          Header.line ⟨atmosHeaderPath, destination.take (HeaderField.room .destination)⟩ :=
        HeaderField.written_eq .destination destination
      refine ⟨⟨atmosHeaderPath, destination.take (HeaderField.room .destination)⟩ ::
        renamingHeaders force, sends_restRequest ?_, ?_, ?_⟩
      · rw [List.map_cons, ← hline]
        cases force <;> rfl
      · have hothers : linesNamed atmosHeaderPath ((renamingHeaders force).map Header.line) = [] :=
          (named_renamingHeaders force).linesNamed_eq_nil (by decide)
        rw [TextBuilder.name, List.map_cons, ← List.singleton_append, linesNamed_append, hothers,
          List.append_nil, TextBuilder.line, TextBuilder.value, List.intercalate_singleton,
          Header.line, headerLine_eq]
        exact linesNamed_line (by decide) _
      · exact ((named_singleton _ _).append (named_renamingHeaders force)).linesNamed_eq_nil
          (by decide)

/-- The line of the texts in what is sent. -/
theorem sent_text {env : Env} (hutf8 : env.atmos.enableUtf8Metadata = true)
    {builder : TextBuilder} {op : Operation} {texts given : List CStr}
    (hsupplied : builder.Supplied op texts given) {call : Call} (hcall : op.call env = some call)
    {response : AtmosResponse} {x : Exchange} {sent : RestRequest}
    (hexecute : call.execute env response = some (.next x)) (hsent : Event.sent sent ∈ x.trace) :
    linesNamed builder.name sent.headers =
      linesNamed builder.name given ++ [builder.line env.curl texts] := by
  obtain ⟨own, hsends, htext, -⟩ := supplied_sends hutf8 hsupplied hcall
  rw [← htext]
  apply hsends.lines ?_ ?_ ?_ hexecute hsent
  · cases builder <;> decide
  · cases builder <;> decide
  · cases builder <;> decide

/-- The lines that declare the mode. -/
theorem sent_utf8 {env : Env} (hutf8 : env.atmos.enableUtf8Metadata = true)
    {builder : TextBuilder} {op : Operation} {texts given : List CStr}
    (hsupplied : builder.Supplied op texts given) {call : Call} (hcall : op.call env = some call)
    {response : AtmosResponse} {x : Exchange} {sent : RestRequest}
    (hexecute : call.execute env response = some (.next x)) (hsent : Event.sent sent ∈ x.trace) :
    linesNamed atmosHeaderUtf8 sent.headers = linesNamed atmosHeaderUtf8 given ++
      if builder = .destination then [] else [utf8Line] := by
  obtain ⟨own, hsends, -, hmode⟩ := supplied_sends hutf8 hsupplied hcall
  rw [← hmode]
  exact hsends.lines (by decide) (by decide) (by decide) hexecute hsent

/-! ## Uniform mode -/

/-- A request in UTF-8 mode: the mode is declared, and behind the given lines of
a name there is one more, with the encoded texts, which are read back from it. -/
structure Utf8Uniform (name : CStr) (texts given : List CStr) (sent : RestRequest) : Prop where
  declared : utf8Line ∈ sent.headers
  encoded : ∃ value, linesNamed name sent.headers =
      linesNamed name given ++ [headerLine name value] ∧
    value = (bytes ", ").intercalate (texts.map encode) ∧
    (splitPair comma space value).map decode = texts

/-- Texts of unreserved bytes only. -/
def Unreserved (texts : List CStr) : Prop := ∀ text ∈ texts, ∀ b ∈ text, unreserved b = true

/-- When a builder does what the mode asks for. -/
def TextBuilder.Uniform (texts : List CStr) : TextBuilder → Prop
  | fetchedNames | deletedNames | userTags | objectTag => ∀ text ∈ texts, Uncut text
  | systemTags | systemNames | parentTag => Unreserved texts
  | tokenPath => Unreserved texts ∧ ∀ path ∈ texts, path.length ≤ HeaderField.room .tokenPath
  | destination => False

/-- **Encoded texts are read back**: splitting and decoding undo joining and
encoding. -/
theorem decode_split_encode {texts : List CStr} (hne : texts ≠ []) :
    (splitPair comma space ((bytes ", ").intercalate (texts.map encode))).map decode = texts := by
  have hsep : bytes ", " = [comma, space] := by decide
  have hcomma : ∀ text ∈ texts.map encode, comma ∉ text := by
    intro text htext
    obtain ⟨plain, -, rfl⟩ := List.mem_map.mp htext
    exact notMem_encode (by decide) (by decide) plain
  rw [hsep, splitPair_intercalate hcomma (by simpa using hne), List.map_map]
  have hid : decode ∘ encode = id := funext decode_encode
  rw [hid, List.map_id]

/-- The encoded texts of a builder are those it was given exactly when no length
is cut. -/
theorem tagsValue_eq_encoded_iff {curl : Curl} (hcurl : curl.Documented) {texts : List CStr}
    (hne : texts ≠ []) :
    tagsValue curl true texts = (bytes ", ").intercalate (texts.map encode) ↔
      ∀ text ∈ texts, Uncut text := by
  have htexts : texts.map (tagText curl true) = (texts.map escapedText).map encode := by
    rw [List.map_map]
    refine List.map_congr_left fun text _ => ?_
    rw [tagText, if_pos rfl, hcurl.escapeString_getD]
    rfl
  rw [tagsValue, htexts]
  constructor
  · intro h text hmem
    have hread := @decode_split_encode (texts.map escapedText) (by simpa using hne)
    rw [h, decode_split_encode hne] at hread
    have hsame : texts.map escapedText = texts.map id := by rw [← hread, List.map_id]
    exact escapedText_eq_self_iff.mp (List.map_inj_left.mp hsame text hmem)
  · intro h
    have hsame : texts.map escapedText = texts.map id :=
      List.map_congr_left fun text hmem => escapedText_of_uncut (h text hmem)
    rw [hsame, List.map_id]

theorem TextBuilder.Supplied.ne_nil {builder : TextBuilder} {op : Operation}
    {texts given : List CStr} (hsupplied : builder.Supplied op texts given) : texts ≠ [] := by
  cases hsupplied with
  | objectTag | parentTag | tokenPath | destination => exact List.cons_ne_nil _ _
  | _ => assumption

/-- What the builders write is the joined encodings exactly then. -/
theorem value_eq_encoded_iff {curl : Curl} (hcurl : curl.Documented) {builder : TextBuilder}
    {op : Operation} {texts given : List CStr} (hsupplied : builder.Supplied op texts given)
    (hdeclares : builder ≠ .destination) :
    builder.value curl texts = (bytes ", ").intercalate (texts.map encode) ↔
      builder.Uniform texts := by
  have hencoded := tagsValue_eq_encoded_iff hcurl hsupplied.ne_nil
  have hplain : (bytes ", ").intercalate texts = (bytes ", ").intercalate (texts.map encode) ↔
      Unreserved texts := by
    rw [eq_comm, intercalate_encode_eq_iff]
    rfl
  cases hsupplied with
  | fetchedNames | deletedNames | deletedNamesNs | deletedNamesKeypool | directoryUserTags
  | objectsUserTags | objectTag =>
      exact hencoded
  | directorySystemTags | objectsSystemTags | systemNames | parentTag => exact hplain
  | @tokenPath request token hfields hobject hpath =>
      have hroom : HeaderField.room .tokenPath = 242 := rfl
      obtain ⟨hgrows, hsame⟩ := length_encode_eq_iff token.path
      rw [TextBuilder.value, TextBuilder.Uniform, List.map_singleton, List.intercalate_singleton,
        List.intercalate_singleton, Unreserved, List.forall_mem_singleton,
        List.forall_mem_singleton, ← hsame]
      constructor
      · intro h
        have hlength := congrArg List.length h
        rw [List.length_take] at hlength
        omega
      · rintro ⟨hlength, hfits⟩
        rw [List.take_of_length_le hfits, encode_of_unreserved (hsame.mp hlength)]
  | destination => exact absurd rfl hdeclares

/-- **UTF-8 mode is uniform** for the texts of a builder exactly where it encodes
them and cuts no length, or where it declares texts that the encoding would leave
alone. -/
theorem utf8_uniform_iff {env : Env} (hutf8 : env.atmos.enableUtf8Metadata = true)
    (hcurl : env.curl.Documented) {builder : TextBuilder} {op : Operation}
    {texts given : List CStr} (hsupplied : builder.Supplied op texts given) {call : Call}
    (hcall : op.call env = some call) {response : AtmosResponse} {x : Exchange}
    {sent : RestRequest} (hexecute : call.execute env response = some (.next x))
    (hsent : Event.sent sent ∈ x.trace) :
    Utf8Uniform builder.name texts given sent ↔ builder.Uniform texts := by
  have htext := sent_text hutf8 hsupplied hcall hexecute hsent
  have hmode := sent_utf8 hutf8 hsupplied hcall hexecute hsent
  have hdeclared : utf8Line ∈ sent.headers ↔
      utf8Line ∈ linesNamed atmosHeaderUtf8 sent.headers := by
    have hname : nameIs atmosHeaderUtf8 utf8Line = true := by decide
    rw [linesNamed, List.mem_filter, and_iff_left hname]
  by_cases hdestination : builder = .destination
  · subst hdestination
    cases hsupplied
    refine iff_of_false ?_ id
    intro huniform
    have hmem := hdeclared.mp huniform.declared
    rw [hmode] at hmem
    cases hmem
  · rw [← value_eq_encoded_iff hcurl hsupplied hdestination]
    constructor
    · rintro ⟨-, value, hvalue, hencoded, -⟩
      rw [htext, List.append_cancel_left_eq, List.cons.injEq, TextBuilder.line, headerLine,
        headerLine, List.append_cancel_left_eq] at hvalue
      exact hvalue.1.trans hencoded
    · intro h
      refine ⟨?_, builder.value env.curl texts, htext, h, ?_⟩
      · rw [hdeclared, hmode, if_neg hdestination]
        exact List.mem_append_right _ (List.mem_singleton_self _)
      · rw [h]
        exact decode_split_encode hsupplied.ne_nil

/-- The listing of a directory encodes its tag and declares it. -/
theorem utf8_uniform_docs :
    ∃ x sent, (AtmosClient.listDirectory docsListing).execute readerEnv (.init .subclass) =
        some (.next x) ∧ Event.sent sent ∈ x.trace ∧
      Utf8Uniform atmosHeaderUserTags [bytes "farbe"] docsListing.parent.headers sent := by
  obtain ⟨x, hx⟩ := execute_docsListing
  have hown : HasOwnFilters (AtmosClient.listDirectory docsListing) :=
    hasOwnFilters_call docsListing (by decide)
  obtain ⟨sent, hsent⟩ := execute_sends hown hx
  have hfields : docsListing.fields = .listDirectory ⟨5, docsToken, length_docsToken⟩
      ⟨true, [bytes "farbe"], []⟩ := rfl
  have hsupplied := TextBuilder.Supplied.directoryUserTags hfields rfl (List.cons_ne_nil _ _)
  have hcurl : readerEnv.curl.Documented := Curl.standard_documented
  have huncut : ∀ text ∈ [bytes "farbe"], Uncut text :=
    List.forall_mem_singleton.mpr (.inl (by decide))
  exact ⟨x, sent, hx, hsent, (utf8_uniform_iff rfl hcurl hsupplied rfl hx hsent).mpr huncut⟩

/-- A tag that looks like an encoding. -/
def encodedLooking : CStr := bytes "a%2Cb"

/-- The request for the tags below it. -/
def parentRequest : AtmosRequest :=
  (AtmosGetListableTagsRequest.init encodedLooking).get (by decide)

theorem execute_parentRequest :
    ∃ x sent, (AtmosClient.getListableTags parentRequest).execute readerEnv (.init .subclass) =
        some (.next x) ∧ Event.sent sent ∈ x.trace := by
  let start : Exchange := { request := parentRequest, response := .init .subclass, trace := [] }
  let lines : List CStr := [headerLine atmosHeaderTags encodedLooking, utf8Line]
  have hrun : run ([RestFilter.setPaginationHeaders, .getListableTags].reverse.map
      (RestFilter.before readerEnv)) start = some (.next (start.addHeaders lines)) := rfl
  have hcolon : ∀ line ∈ (start.addHeaders lines).headers, colon ∈ line := by
    intro line hmem
    rcases List.mem_pair.mp hmem with rfl | rfl
    · exact colon_mem_headerLine _ _
    · exact colon_mem_headerLine _ _
  exact execute_call_sends (by decide) hrun hcolon

/-- It is declared as an encoding although it is none, and decoded it is another
tag. -/
theorem parent_tag_not_uniform :
    ∃ x sent, (AtmosClient.getListableTags parentRequest).execute readerEnv (.init .subclass) =
        some (.next x) ∧ Event.sent sent ∈ x.trace ∧
      utf8Line ∈ sent.headers ∧
      linesNamed atmosHeaderTags sent.headers = [headerLine atmosHeaderTags encodedLooking] ∧
      decode encodedLooking ≠ encodedLooking ∧
      ¬ Utf8Uniform atmosHeaderTags [encodedLooking] parentRequest.parent.headers sent := by
  obtain ⟨x, sent, hx, hsent⟩ := execute_parentRequest
  have hfields : parentRequest.fields = .getListableTags .zero ⟨encodedLooking, by decide⟩ := rfl
  have hsupplied := TextBuilder.Supplied.parentTag hfields (by decide)
  have htext : linesNamed atmosHeaderTags sent.headers =
      [headerLine atmosHeaderTags encodedLooking] :=
    sent_text rfl hsupplied rfl hx hsent
  have hmode : linesNamed atmosHeaderUtf8 sent.headers = [utf8Line] :=
    sent_utf8 rfl hsupplied rfl hx hsent
  have hdeclared : utf8Line ∈ sent.headers := by
    have hmem : utf8Line ∈ linesNamed atmosHeaderUtf8 sent.headers := by
      rw [hmode]
      exact List.mem_singleton_self _
    exact List.mem_of_mem_filter hmem
  refine ⟨x, sent, hx, hsent, hdeclared, htext, by decide, ?_⟩
  rintro ⟨-, value, hvalue, -, hread⟩
  have hgiven : linesNamed atmosHeaderTags parentRequest.parent.headers = [] := rfl
  rw [htext, hgiven, List.nil_append, List.cons.injEq, headerLine, headerLine,
    List.append_cancel_left_eq] at hvalue
  rw [← hvalue.1] at hread
  exact absurd hread (by decide)

end Atmos
