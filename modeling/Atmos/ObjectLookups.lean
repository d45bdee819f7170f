import Atmos.AclRoundTrip
import Atmos.AclStaleness
import Atmos.ListableMetadata
import Atmos.ResponseFilters
import Atmos.SignatureCoverage
import Atmos.UnparsedFailures

/-!
# Looking up what was written

An application sets metadata and access control entries on a request that writes an object;
it looks up values by their names, and permissions by principals, in the response to a
request that reads one.

* `holdsWrite_sent` — the headers of the object, in what is sent;
* `findsMetadata_of_shows`, `findsAcl_of_view` — lookups see the first entry that matches;
* `object_lookups` — whoever reads the object finds what was written;
* `acl_lookups` — so does whoever reads it after its access control list was set.
-/

namespace Atmos

open ByteText FixedMemory FilterChain AtmosUtil

/-! ## Lookups -/

namespace AtmosUtil

/-- The loop of `AtmosUtil_get_metadata_value` over the counted entries: the value, or NULL;
no result where a string is not terminated. -/
def findMetadataValue (name : CStr) : List MetadataSlot → Option (Option CStr)
  | [] => some none
  | slot :: entries => do
      let stored ← slot.cstrAt 0
      if name = stored then (slot.cstrAt atmosMetaNameMax).map some
      else findMetadataValue name entries

/-- `AtmosUtil_get_metadata_value` -/
def getMetadataValue (array : MetadataArray) (name : CStr) : Option (Option CStr) :=
  findMetadataValue name (array.1.take array.2)

end AtmosUtil

/-- `AtmosReadObjectResponse_get_metadata_value` -/
def AtmosReadObjectResponse.getMetadataValue (self : AtmosReadObjectResponse) (name : CStr)
    (listable : Bool) : Option (Option CStr) :=
  AtmosUtil.getMetadataValue
    (if listable then self.arrays.listableMeta else self.arrays.metadata) name

/-- `AtmosReadObjectResponse_get_acl_permission` -/
def AtmosReadObjectResponse.getAclPermission (self : AtmosReadObjectResponse)
    (principal : CStr) (principalType : AclPrincipalType) : Option AclPermission :=
  AtmosUtil.getAclPermission self.arrays.acl principal principalType

/-- `AtmosGetUserMetaResponse_get_metadata_value`, given the arrays of the response. -/
def AtmosGetUserMetaResponse.getMetadataValue (metadata listableMeta : MetadataArray)
    (name : CStr) (listable : Bool) : Option (Option CStr) :=
  AtmosUtil.getMetadataValue (if listable then listableMeta else metadata) name

/-- `AtmosGetAclResponse_get_acl_permission`, given the array of the response. -/
def AtmosGetAclResponse.getAclPermission (acl : AclArray) (principal : CStr)
    (principalType : AclPrincipalType) : Option AclPermission :=
  AtmosUtil.getAclPermission acl principal principalType

/-! ## What is to be found -/

/-- The value of the first entry of a name. -/
def firstValue (entries : List AtmosMetadata) (name : CStr) : Option CStr :=
  (entries.find? (·.name = name)).map (·.value)

/-- Users, and the one group there is. -/
def AtmosAclEntry.isSent (entry : AtmosAclEntry) : Bool :=
  entry.type = .user ∨ entry.type = .group ∧ entry.principal = atmosAclGroupOther

/-- The permission in the first entry for a principal. -/
def givenPermission (acl : List AtmosAclEntry) (principal : CStr)
    (principalType : AclPrincipalType) : AclPermission :=
  (acl.find? fun entry =>
    entry.isSent ∧ entry.principal = principal ∧ entry.type = principalType).elim .none
      (·.permission)

/-- Every name is looked up as in a list of entries. -/
def FindsMetadata (array : MetadataArray) (entries : List AtmosMetadata) : Prop :=
  ∀ name, getMetadataValue array name = some (firstValue entries name)

/-- Every principal is looked up as in a list of entries. -/
def FindsAcl (array : AclArray) (acl : List AtmosAclEntry) : Prop :=
  ∀ principal principalType, getAclPermission array principal principalType =
    some (givenPermission acl principal principalType)

theorem findMetadataValue_of_view {slots : List MetadataSlot} {entries : List AtmosMetadata}
    (h : slots.map MetadataSlot.view = entries.map some) (name : CStr) :
    findMetadataValue name slots = some (firstValue entries name) := by
  induction slots generalizing entries with
  | nil =>
      rw [List.map_nil, eq_comm, List.map_eq_nil_iff] at h
      rw [h]
      rfl
  | cons slot slots ih =>
      cases entries with
      | nil => cases h
      | cons entry entries =>
          rw [List.map_cons, List.map_cons] at h
          obtain ⟨hview, htail⟩ := List.cons.inj h
          obtain ⟨stored, hstored, hview⟩ := Option.bind_eq_some_iff.mp hview
          obtain ⟨value, hvalue, hentry⟩ := Option.bind_eq_some_iff.mp hview
          obtain rfl := Option.some.inj hentry
          rw [findMetadataValue, hstored, firstValue, List.find?_cons]
          simp only [Option.bind_eq_bind, Option.bind_some]
          by_cases hname : name = stored
          · rw [if_pos hname, hvalue, decide_eq_true hname.symm]
            rfl
          · rw [if_neg hname, decide_eq_false fun heq => hname heq.symm]
            exact ih htail

/-- **Metadata.**  An array that shows some entries is one to look them up in. -/
theorem findsMetadata_of_shows {array : MetadataArray} {entries : List AtmosMetadata}
    (h : Shows array entries) : FindsMetadata array entries :=
  findMetadataValue_of_view h.view

theorem findAclPermission_of_view {slots : List AclSlot} {acl : List AtmosAclEntry}
    (h : slots.map AclSlot.view = acl.map some) (principal : CStr)
    (principalType : AclPrincipalType) :
    findAclPermission principal principalType slots =
      some ((acl.find? fun entry =>
        entry.principal = principal ∧ entry.type = principalType).elim .none
          (·.permission)) := by
  induction slots generalizing acl with
  | nil =>
      rw [List.map_nil, eq_comm, List.map_eq_nil_iff] at h
      rw [h]
      rfl
  | cons slot slots ih =>
      cases acl with
      | nil => cases h
      | cons entry acl =>
          rw [List.map_cons, List.map_cons] at h
          obtain ⟨hview, htail⟩ := List.cons.inj h
          obtain ⟨stored, hstored, rfl⟩ := Option.map_eq_some_iff.mp hview
          rw [findAclPermission, hstored, List.find?_cons]
          simp only [Option.bind_eq_bind, Option.bind_some]
          by_cases hmatch : stored = principal ∧ slot.type = principalType
          · rw [if_pos hmatch, decide_eq_true hmatch]
            rfl
          · rw [if_neg hmatch, decide_eq_false hmatch]
            exact ih htail

/-- In the order in which the headers are read, a principal has the same first entry. -/
theorem find?_users_others (acl : List AtmosAclEntry) (principal : CStr)
    (principalType : AclPrincipalType) :
    (aclUsers acl ++ aclOthers acl).find?
        (fun entry => entry.principal = principal ∧ entry.type = principalType) =
      acl.find? fun entry =>
        entry.isSent ∧ entry.principal = principal ∧ entry.type = principalType := by
  rw [aclUsers, aclOthers, List.find?_append, List.find?_filter, List.find?_filter]
  -- only one of the headers has entries of the type
  by_cases htype : principalType = .user
  · have hothers : acl.find? (fun entry => decide (decide (entry.type = .group ∧
        entry.principal = atmosAclGroupOther) = true ∧ decide (entry.principal = principal ∧
          entry.type = principalType) = true)) = none := by
      apply List.find?_eq_none.mpr
      intro entry _
      grind
    rw [hothers, Option.or_none]
    refine congrArg (acl.find? ·) (funext fun entry => ?_)
    rw [AtmosAclEntry.isSent]
    grind
  · have husers : acl.find? (fun entry => decide (decide (entry.type = .user) = true ∧
        decide (entry.principal = principal ∧ entry.type = principalType) = true)) = none := by
      apply List.find?_eq_none.mpr
      intro entry _
      grind
    rw [husers, Option.none_or]
    refine congrArg (acl.find? ·) (funext fun entry => ?_)
    rw [AtmosAclEntry.isSent]
    grind

/-- **Permissions.**  An array that shows the entries of the two headers is one to look
principals up in. -/
theorem findsAcl_of_view {array : AclArray} {acl : List AtmosAclEntry}
    (h : (array.1.take array.2).map AclSlot.view = (aclUsers acl ++ aclOthers acl).map some) :
    FindsAcl array acl := by
  intro principal principalType
  rw [getAclPermission, findAclPermission_of_view h, find?_users_others]
  rfl

/-! ## What is sent -/

/-- The operations that send what a write request has in its fields. -/
def objectWriters : List Operation.Family := [.create, .setUserMeta, .update]

/-- The headers of an object. -/
def objectHeaderNames : List CStr :=
  [atmosHeaderMeta, atmosHeaderListableMeta, atmosHeaderUtf8, atmosHeaderUserAcl,
    atmosHeaderGroupAcl]

/-- The filter for write requests adds the headers of an object once. -/
theorem linesNamed_setWriteHeaders {env : Env} {x x' : Exchange}
    {write : AtmosWriteObjectRequest} (hwrite : x.request.fields.asWrite = some write)
    (h : AtmosFilter.setWriteHeaders env x = some (.next x')) {name : CStr}
    (hname : name ∈ objectHeaderNames) :
    linesNamed name x'.headers = linesNamed name x.headers ++
      linesNamed name
        ((objectHeaders env write.metadata write.listableMeta write.acl).map Header.line) := by
  obtain ⟨req, lines, hreq, rfl, happends⟩ := setWriteHeaders_eq_next h
  obtain rfl := Option.some.inj (hwrite.symm.trans hreq)
  have hdistinct : ∀ name ∈ objectHeaderNames,
      (∀ other ∈ [httpHeaderContentType], colon ∉ other ∧
        ByteText.lowercase other ≠ ByteText.lowercase name) ∧
      ∀ other ∈ [atmosHeaderWschecksum, atmosHeaderGenerateChecksum], colon ∉ other ∧
        ByteText.lowercase other ≠ ByteText.lowercase name := by decide
  obtain ⟨hcontent, hchecksums⟩ := hdistinct name hname
  have hheaders : x'.headers = _ := happends.headers
  have hcontentType : Named [httpHeaderContentType]
      (contentTypeHeaders x.request.parent.requestBody) := named_headerIf _ _ _
  rw [hheaders, List.map_append, linesNamed_append, linesNamed_append, linesNamed_append,
    hcontentType.linesNamed_eq_nil hcontent,
    ((named_checksumHeaders _ _ _).filter _).linesNamed_eq_nil hchecksums, List.nil_append,
    List.append_nil]

theorem call_eq {env : Env} {op : Operation} {call : Call} (h : op.call env = some call) :
    call = AtmosClient.call call.request op.family.filters := by
  have hchain := Operation.chain_of_call h
  cases call
  cases hchain
  rfl

/-- **What is sent** under the names of the headers of an object. -/
theorem linesNamed_written {env : Env} {op : Operation} {call : Call}
    {write : AtmosWriteObjectRequest} {response : AtmosResponse} {x : Exchange}
    {sent : RestRequest} (hcall : op.call env = some call) (hop : op.family ∈ objectWriters)
    (hwrite : call.request.fields.asWrite = some write)
    (h : call.execute env response = some (.next x)) (hsent : Event.sent sent ∈ x.trace)
    {name : CStr} (hname : name ∈ objectHeaderNames)
    (hnone : linesNamed name call.request.parent.headers = []) :
    linesNamed name sent.headers = linesNamed name
      ((objectHeaders env write.metadata write.listableMeta write.acl).map Header.line) := by
  have hnames : ∀ name ∈ objectHeaderNames, emcPrefix <+: ByteText.lowercase name ∧
      ByteText.lowercase atmosHeaderSignature ≠ ByteText.lowercase name ∧
      ByteText.lowercase atmosHeaderUid ≠ ByteText.lowercase name ∧
      ∀ other ∈ [httpHeaderRange], colon ∉ other ∧
        ByteText.lowercase other ≠ ByteText.lowercase name := by decide
  obtain ⟨hemc, hsignature, huid, hrangeNames⟩ := hnames name hname
  have hown : ∀ f ∈ op.family.filters, f.isDefault = false := by
    cases op.family <;> decide
  rw [call_eq hcall] at h
  obtain ⟨y, hrun, -, hlines⟩ := linesNamed_sent hemc hsignature hown h hsent
  have huidLine : linesNamed name [uidLine env] = [] := linesNamed_other (by decide) huid _
  rw [hlines, huidLine, List.append_nil]
  have hstart : ∀ {x' : Exchange}, AtmosFilter.setWriteHeaders env x' = some (.next y) →
      x'.request.fields.asWrite = some write → linesNamed name x'.headers = [] →
      linesNamed name y.headers = linesNamed name
        ((objectHeaders env write.metadata write.listableMeta write.acl).map Header.line) := by
    intro x' hx' hfields hheaders
    rw [linesNamed_setWriteHeaders hfields hx' hname, hheaders, List.nil_append]
  simp only [objectWriters, List.mem_cons, List.not_mem_nil, or_false] at hop
  rcases hop with hfamily | hfamily | hfamily <;> rw [hfamily] at hrun
  · obtain ⟨s, hset, hparse⟩ := run_pair_eq_next.mp hrun
    cases hparse
    exact hstart hset hwrite hnone
  · obtain ⟨s, hset, hnil⟩ := run_cons_eq_next.mp hrun
    cases hnil
    exact hstart hset hwrite hnone
  · obtain ⟨s, hrange, hset⟩ := run_pair_eq_next.mp hrun
    obtain ⟨write', range, -, rfl⟩ := updateObject_eq_next hrange
    have hrangeLines : linesNamed name ((rangeHeaders range).map Header.line) = [] :=
      (named_rangeHeaders range).linesNamed_eq_nil hrangeNames
    refine hstart hset hwrite ?_
    rw [Exchange.headers_addHeaders, linesNamed_append, hrangeLines, List.append_nil]
    exact hnone

/-! ## The values of the headers -/

/-- An optional header has its value, if that does not start with a space. -/
theorem getHeaderValue_headerIf (rest : RestClient) {c : Prop} [Decidable c] {name value : CStr}
    (hcolon : colon ∉ name) (hhead : c → value.head? ≠ some space) :
    rest.getHeaderValue ((headerIf c name value).map Header.line) name =
      if c then some value else none := by
  unfold headerIf
  by_cases hc : c
  · have hfound : nameIs name (headerLine name value) = true := by
      rw [nameIs_headerLine hcolon]
      exact decide_eq_true rfl
    rw [if_pos hc, if_pos hc, List.map_singleton, Header.line, rest.getHeaderValue_cons,
      if_pos hfound, rest.headerValue_headerLine hcolon (hhead hc)]
  · rw [if_neg hc, if_neg hc]
    rfl

section Values

variable {env : Env} (hcurl : env.curl.Documented) {entries : List AtmosMetadata}
  (hentries : ∀ e ∈ entries,
    Transportable env.atmos.enableUtf8Metadata e ∧ e.FitsFields)

include hcurl hentries

theorem metadataValue_eq : metadataValue env.curl env.atmos.enableUtf8Metadata entries =
    [comma].intercalate (entries.map (entryWire env.atmos.enableUtf8Metadata)) := by
  rw [metadataValue, metadataLoop_eq env.curl env.atmos.enableUtf8Metadata
    (fun e he => (hentries e he).1.written) (fun e _ => metadataEntry_eq hcurl _ e),
    Option.getD_some]
  rfl

theorem head_metadataValue (hne : entries ≠ []) :
    (metadataValue env.curl env.atmos.enableUtf8Metadata entries).head? ≠ some space := by
  rw [metadataValue_eq hcurl hentries]
  obtain ⟨entry, tail, rfl⟩ := List.exists_cons_of_ne_nil hne
  obtain ⟨htransportable, hfits⟩ := hentries entry (List.mem_cons_self ..)
  have htext : entryWire env.atmos.enableUtf8Metadata entry ≠ [] :=
    List.append_ne_nil_of_right_ne_nil _ (List.cons_ne_nil _ _)
  rw [List.map_cons, head?_intercalate _ htext]
  exact head_entry (htransportable.readable hcurl hfits).name_head _

/-- **The entries in a header** with this value. -/
theorem metaItems_of_value {rest : RestClient} {headers : List CStr} {name : CStr}
    (hvalue : rest.getHeaderValue headers name = if 0 < entries.length then
      some (metadataValue env.curl env.atmos.enableUtf8Metadata entries) else none) :
    metaItems rest headers name = entries.map fun e =>
      (wireText env.atmos.enableUtf8Metadata e.name,
        wireText env.atmos.enableUtf8Metadata e.value) := by
  rw [metaItems, metaFields, hvalue]
  by_cases hne : entries = []
  · rw [hne]
    rfl
  · have hcommas : ∀ piece ∈ entries.map (entryWire env.atmos.enableUtf8Metadata),
        comma ∉ piece := by
      intro piece hpiece
      obtain ⟨e, he, rfl⟩ := List.mem_map.mp hpiece
      exact comma_notMem_entryWire (hentries e he).1.written
    have hitem : ∀ e ∈ entries, metaEntries (entryWire env.atmos.enableUtf8Metadata e) =
        [(wireText env.atmos.enableUtf8Metadata e.name,
          wireText env.atmos.enableUtf8Metadata e.value)] := by
      intro e he
      have hreadable := (hentries e he).1.readable hcurl (hentries e he).2
      exact (metaPiece_of_readable hreadable true).2
    rw [if_pos (List.length_pos_iff.mpr hne), Option.elim_some, metadataValue_eq hcurl hentries,
      List.splitOn_intercalate comma hcommas (by simpa using hne), List.flatMap_map,
      List.flatMap_congr hitem, ← List.map_eq_flatMap]

end Values

/-- What can be read back from an object: metadata that can be transported, principals that
can be sent, and no more of them than a response has room for. -/
structure Storable (utf8 : Bool) (write : AtmosWriteObjectRequest) : Prop where
  metadata : ∀ e ∈ write.metadata, Transportable utf8 e ∧ e.FitsFields
  listableMeta : ∀ e ∈ write.listableMeta, Transportable utf8 e ∧ e.FitsFields
  acl : ∀ e ∈ write.acl, e.isSent = true → SendableAcl e
  metadata_count : write.metadata.length ≤ atmosMetaCountMax
  listableMeta_count : write.listableMeta.length ≤ atmosMetaCountMax
  acl_count : write.acl.length ≤ atmosAclCountMax

/-- Header lines hold what a write request has. -/
structure HoldsWrite (rest : RestClient) (utf8 : Bool) (write : AtmosWriteObjectRequest)
    (headers : List CStr) : Prop where
  mode : isUtf8 rest headers = utf8
  metadata : metaItems rest headers atmosHeaderMeta =
    write.metadata.map fun e => (wireText utf8 e.name, wireText utf8 e.value)
  listableMeta : metaItems rest headers atmosHeaderListableMeta =
    write.listableMeta.map fun e => (wireText utf8 e.name, wireText utf8 e.value)
  acl : aclItems rest headers = (aclUsers write.acl ++ aclOthers write.acl).map sentItem

theorem mem_aclUsers_others {acl : List AtmosAclEntry} {e : AtmosAclEntry} :
    (e ∈ aclUsers acl → e ∈ acl ∧ e.isSent = true) ∧
      (e ∈ aclOthers acl → e ∈ acl ∧ e.isSent = true) := by
  constructor
  · intro h
    obtain ⟨hmem, htype⟩ := List.mem_filter.mp h
    exact ⟨hmem, decide_eq_true (.inl (of_decide_eq_true htype))⟩
  · intro h
    obtain ⟨hmem, hother⟩ := List.mem_filter.mp h
    exact ⟨hmem, decide_eq_true (.inr (of_decide_eq_true hother))⟩

/-- A header is not found under another name. -/
theorem linesNamed_headerIf_other {c : Prop} [Decidable c] {name other : CStr}
    (hcolon : colon ∉ other) (hne : ByteText.lowercase other ≠ ByteText.lowercase name)
    (value : CStr) : linesNamed name ((headerIf c other value).map Header.line) = [] :=
  (named_headerIf c other value).linesNamed_eq_nil fun _ hmem =>
    List.mem_singleton.mp hmem ▸ ⟨hcolon, hne⟩

/-- The value of a header, given its lines. -/
theorem getHeaderValue_of_lines (rest : RestClient) {headers : List CStr} {c : Prop}
    [Decidable c] {name value : CStr}
    (hlines : linesNamed name headers =
      linesNamed name ((headerIf c name value).map Header.line))
    (hcolon : colon ∉ name) (hhead : c → value.head? ≠ some space) :
    rest.getHeaderValue headers name = if c then some value else none := by
  rw [← rest.getHeaderValue_filter headers]
  change rest.getHeaderValue (linesNamed name headers) name = _
  rw [hlines]
  exact (rest.getHeaderValue_filter _ _).trans (getHeaderValue_headerIf rest hcolon hhead)

/-- **The items of an access control list**, under its two headers. -/
theorem aclItems_of_lines {rest : RestClient} {acl : List AtmosAclEntry}
    (hacl : ∀ e ∈ acl, e.isSent = true → SendableAcl e) {headers : List CStr}
    (hlines : ∀ name ∈ [atmosHeaderUserAcl, atmosHeaderGroupAcl],
      linesNamed name headers = linesNamed name ((aclHeaders acl).map Header.line)) :
    aclItems rest headers = (aclUsers acl ++ aclOthers acl).map sentItem := by
  have husers : ∀ e ∈ aclUsers acl, SendableAcl e := fun e he =>
    hacl e (mem_aclUsers_others.1 he).1 (mem_aclUsers_others.1 he).2
  have hothers : ∀ e ∈ aclOthers acl, SendableAcl e := fun e he =>
    hacl e (mem_aclUsers_others.2 he).1 (mem_aclUsers_others.2 he).2
  have huser := hlines atmosHeaderUserAcl (by decide)
  have hgroup := hlines atmosHeaderGroupAcl (by decide)
  simp (disch := decide) only [aclHeaders, List.map_append, linesNamed_append,
    linesNamed_headerIf_other, List.append_nil, List.nil_append] at huser hgroup
  have hvalue := getHeaderValue_of_lines rest huser (by decide) fun hne =>
    head_aclValue hne husers
  have hvalue' := getHeaderValue_of_lines rest hgroup (by decide) fun hne =>
    head_aclValue hne hothers
  rw [ite_not] at hvalue hvalue'
  rw [aclItems, (aclFields_of_value rest husers ?_ hvalue).2,
    (aclFields_of_value rest hothers ?_ hvalue').2, List.map_append]
  · intro e he
    exact (of_decide_eq_true (List.mem_filter.mp he).2).1
  · intro e he
    exact of_decide_eq_true (List.mem_filter.mp he).2

/-- **The headers of an object** hold what the request has. -/
theorem holdsWrite_sent {env : Env} (hcurl : env.curl.Documented)
    {write : AtmosWriteObjectRequest} (hwrite : Storable env.atmos.enableUtf8Metadata write)
    {headers : List CStr}
    (hsent : ∀ name ∈ objectHeaderNames, linesNamed name headers = linesNamed name
      ((objectHeaders env write.metadata write.listableMeta write.acl).map Header.line)) :
    HoldsWrite env.rest env.atmos.enableUtf8Metadata write headers := by
  have hmeta := hsent atmosHeaderMeta (by decide)
  have hlistable := hsent atmosHeaderListableMeta (by decide)
  have hutf8 := hsent atmosHeaderUtf8 (by decide)
  -- under each name the other headers have no lines
  simp (disch := decide) only [objectHeaders, utf8Headers, aclHeaders, List.map_append,
    linesNamed_append, linesNamed_headerIf_other, List.append_nil, List.nil_append]
    at hmeta hlistable hutf8
  refine ⟨?_, ?_, ?_, aclItems_of_lines hwrite.acl fun name hname => ?_⟩
  · rw [isUtf8, getHeaderValue_of_lines env.rest hutf8 (by decide) fun _ => by decide]
    cases env.atmos.enableUtf8Metadata <;> rfl
  · exact metaItems_of_value hcurl hwrite.metadata
      (getHeaderValue_of_lines env.rest hmeta (by decide) fun hpos =>
        head_metadataValue hcurl hwrite.metadata (List.length_pos_iff.mp hpos))
  · exact metaItems_of_value hcurl hwrite.listableMeta
      (getHeaderValue_of_lines env.rest hlistable (by decide) fun hpos =>
        head_metadataValue hcurl hwrite.listableMeta (List.length_pos_iff.mp hpos))
  · have hnames : ∀ name ∈ [atmosHeaderUserAcl, atmosHeaderGroupAcl],
        name ∈ objectHeaderNames ∧
        ByteText.lowercase atmosHeaderMeta ≠ ByteText.lowercase name ∧
        ByteText.lowercase atmosHeaderListableMeta ≠ ByteText.lowercase name ∧
        ByteText.lowercase atmosHeaderUtf8 ≠ ByteText.lowercase name := by decide
    obtain ⟨hobject, hne, hne', hne''⟩ := hnames name hname
    rw [hsent name hobject, objectHeaders, utf8Headers, List.map_append, List.map_append,
      List.map_append, linesNamed_append, linesNamed_append, linesNamed_append,
      linesNamed_headerIf_other (by decide) hne, linesNamed_headerIf_other (by decide) hne',
      linesNamed_headerIf_other (by decide) hne'']
    rfl

/-! ## What is answered -/

/-- The response to a request that reads the object: under each header it has the entries
that were sent, besides system metadata, and all of it can be read. -/
structure Reports (rest : RestClient) (sent : List CStr) (env : ReplyEnv) (reply : Reply) :
    Prop where
  success : aboveSuccess reply.httpCode = false
  mode : isUtf8 env.rest reply.headers = isUtf8 rest sent
  metadata : ∀ name ∈ [atmosHeaderMeta, atmosHeaderListableMeta],
    metaItems env.rest reply.headers name = metaItems rest sent name ∧
      AllFields MetaFieldFits (metaFields env.rest reply.headers name)
  acl : aclItems env.rest reply.headers = aclItems rest sent
  acl_fits : AclFieldsFit env.rest reply.headers
  times : ∀ value, reply.getHeaderValue env atmosHeaderMeta = some value →
    ∀ entry ∈ headerEntries value, TimeFits entry

section Answers

variable {env : ReplyEnv} {reply : Reply} {rest : RestClient} {utf8 : Bool}
  {write : AtmosWriteObjectRequest} {sent : List CStr}

/-- The array for one kind of metadata. -/
theorem shows_of_items (hcurl : env.curl.Documented) {entries : List AtmosMetadata}
    (hentries : ∀ e ∈ entries, Transportable utf8 e ∧ e.FitsFields) {name : CStr}
    (hitems : metaItems env.rest reply.headers name =
      entries.map fun e => (wireText utf8 e.name, wireText utf8 e.value))
    (hfits : AllFields MetaFieldFits (metaFields env.rest reply.headers name))
    (hmode : isUtf8 env.rest reply.headers = utf8) {slots : List MetadataSlot}
    (hroom : entries.length ≤ slots.length) :
    ∃ array, parseMetaHeader env.rest env.curl reply.headers name (slots, 0) = some array ∧
      Shows array entries := by
  have hlength : (metaItems env.rest reply.headers name).length = entries.length := by
    rw [hitems, List.length_map]
  refine ⟨_, (parseMetaHeader_eq_some ..).mpr ⟨⟨hfits, hlength.trans_le hroom⟩, rfl⟩,
    hlength, ?_⟩
  have hstored : (List.zipWith (storeEntry env.curl (isUtf8 env.rest reply.headers))
      (metaItems env.rest reply.headers name) slots).length =
        (metaItems env.rest reply.headers name).length := by
    rw [List.length_zipWith, Nat.min_eq_left (hlength.trans_le hroom)]
  dsimp only
  rw [List.take_left' hstored, hitems, hmode, map_zipWith_store (storeEntry env.curl utf8)
    (fun e he slot => view_storeEntry ((hentries e he).1.readable hcurl (hentries e he).2) slot)
      hroom, List.map_id']

/-- The array for the access control entries. -/
theorem parseAclHeaders_finds {acl : List AtmosAclEntry}
    (hsendable : ∀ e ∈ acl, e.isSent = true → SendableAcl e)
    (hcount : acl.length ≤ atmosAclCountMax)
    (hitems : aclItems env.rest reply.headers =
      (aclUsers acl ++ aclOthers acl).map sentItem)
    (hfits : AclFieldsFit env.rest reply.headers) {slots : List AclSlot}
    (hslots : slots.length = atmosAclCountMax) :
    ∃ array, parseAclHeaders env.rest reply.headers (slots, 0) = some array ∧
      FindsAcl array acl := by
  have hlength : (aclItems env.rest reply.headers).length =
      (aclUsers acl ++ aclOthers acl).length := by
    rw [hitems, List.length_map]
  have hroom : (aclUsers acl ++ aclOthers acl).length ≤ slots.length := by
    rw [List.length_append, hslots]
    exact (length_aclUsers_add acl).trans hcount
  refine ⟨_, (parseAclHeaders_eq ..).mpr ⟨⟨hfits, hlength.trans_le hroom⟩, rfl⟩,
    findsAcl_of_view ?_⟩
  have hstored : (List.zipWith storeAcl (aclItems env.rest reply.headers) slots).length =
      (aclItems env.rest reply.headers).length := by
    rw [List.length_zipWith, Nat.min_eq_left (hlength.trans_le hroom)]
  dsimp only
  rw [List.take_left' hstored, hitems, map_zipWith_store storeAcl ?_ hroom, List.map_id']
  intro e he slot
  have hsent : e ∈ acl ∧ e.isSent = true := by
    rcases List.mem_append.mp he with he | he
    · exact mem_aclUsers_others.1 he
    · exact mem_aclUsers_others.2 he
  exact view_storeAcl_sentItem (hsendable e hsent.1 hsent.2) slot

variable (hcurl : env.curl.Documented) (hstorable : Storable utf8 write)
  (hholds : HoldsWrite rest utf8 write sent) (hreports : Reports rest sent env reply)

include hcurl hstorable hholds hreports

theorem parseUserMetaHeaders_shows :
    ∃ metadata listableMeta, parseUserMetaHeaders env.rest env.curl reply.headers
        zeroedArrays.metadata zeroedArrays.listableMeta = some (metadata, listableMeta) ∧
      Shows metadata write.metadata ∧ Shows listableMeta write.listableMeta := by
  have hmode := hreports.mode.trans hholds.mode
  obtain ⟨hitems, hfits⟩ := hreports.metadata atmosHeaderMeta (by decide)
  obtain ⟨hitems', hfits'⟩ := hreports.metadata atmosHeaderListableMeta (by decide)
  have hslots : zeroedArrays.metadata.1.length = atmosMetaCountMax := List.length_replicate
  obtain ⟨metadata, hparse, hshows⟩ := shows_of_items hcurl hstorable.metadata
    (hitems.trans hholds.metadata) hfits hmode (hslots ▸ hstorable.metadata_count)
  obtain ⟨listableMeta, hparse', hshows'⟩ := shows_of_items hcurl hstorable.listableMeta
    (hitems'.trans hholds.listableMeta) hfits' hmode (hslots ▸ hstorable.listableMeta_count)
  refine ⟨metadata, listableMeta, ?_, hshows, hshows'⟩
  exact Option.bind_eq_some_iff.mpr ⟨_, hparse, Option.bind_eq_some_iff.mpr ⟨_, hparse', rfl⟩⟩

omit hcurl hstorable hholds in
theorem parseSystemMetaHeader_isSome (system : AtmosSystemMetadata) :
    (parseSystemMetaHeader env.time env.rest env.curl reply.headers system).isSome := by
  obtain ⟨-, hfits⟩ := hreports.metadata atmosHeaderMeta (by decide)
  cases hvalue : env.rest.getHeaderValue reply.headers atmosHeaderMeta with
  | none =>
      rw [parseSystemMetaHeader, hvalue]
      rfl
  | some value =>
      rw [metaFields, hvalue, Option.elim_some] at hfits
      exact (parseSystemMetaHeader_isSome_iff env.time env.rest env.curl hvalue system).mpr
        ⟨hfits, hreports.times value hvalue⟩

/-- A response that reads an object has arrays in which lookups find what was written. -/
theorem readObject_parse_finds :
    ∃ self, (AtmosReadObjectResponse.mk zeroedArrays zeroedSystemMetadata).parse env reply =
        .ok self ∧
      Shows self.arrays.metadata write.metadata ∧
      Shows self.arrays.listableMeta write.listableMeta ∧ FindsAcl self.arrays.acl write.acl := by
  obtain ⟨metadata, listableMeta, hmeta, hshows, hshows'⟩ :=
    parseUserMetaHeaders_shows hcurl hstorable hholds hreports
  have hslots : (List.replicate atmosAclCountMax zeroedAcl).length = atmosAclCountMax :=
    List.length_replicate
  obtain ⟨acl, hacl, hfinds⟩ := parseAclHeaders_finds hstorable.acl hstorable.acl_count
    (hreports.acl.trans hholds.acl) hreports.acl_fits hslots
  obtain ⟨systemMetadata, hsystem⟩ := Option.isSome_iff_exists.mp
    (parseSystemMetaHeader_isSome hreports zeroedSystemMetadata)
  have harrays : zeroedArrays.parse env.rest env.curl reply.headers =
      some ⟨metadata, listableMeta, acl⟩ :=
    Option.bind_eq_some_iff.mpr ⟨_, hmeta, Option.bind_eq_some_iff.mpr ⟨_, hacl, rfl⟩⟩
  refine ⟨⟨⟨metadata, listableMeta, acl⟩, systemMetadata⟩, ?_, hshows, hshows', hfinds⟩
  exact within_eq_ok.mpr (Option.bind_eq_some_iff.mpr
    ⟨_, hsystem, Option.bind_eq_some_iff.mpr ⟨_, harrays, rfl⟩⟩)

end Answers

/-- Lookups in a response find what a request wrote. -/
def ResponseData.Finds (write : AtmosWriteObjectRequest) :
    Operation.Family → ResponseData → Prop
  | .read, readObject self =>
      (∀ name listable, self.getMetadataValue name listable =
        some (firstValue (if listable then write.listableMeta else write.metadata) name)) ∧
      ∀ principal principalType, self.getAclPermission principal principalType =
        some (givenPermission write.acl principal principalType)
  | .getUserMeta, getUserMeta metadata listableMeta => ∀ name listable,
      AtmosGetUserMetaResponse.getMetadataValue metadata listableMeta name listable =
        some (firstValue (if listable then write.listableMeta else write.metadata) name)
  | .getAcl, getAcl acl => ∀ principal principalType,
      AtmosGetAclResponse.getAclPermission acl principal principalType =
        some (givenPermission write.acl principal principalType)
  | _, _ => False

/-- The operations whose responses have lookups. -/
def objectReaders : List Operation.Family := [.read, .getUserMeta, .getAcl]

/-- Without an error only the code and the status are stored. -/
theorem afterErrors_of_success {env : ReplyEnv} {reply : Reply}
    (h : aboveSuccess reply.httpCode = false) (method : HttpMethod) (response : Response) :
    ∃ parent, parent.httpCode = reply.httpCode ∧
      afterErrors env reply method response = .ok ⟨parent, response.data⟩ := by
  have hcode : ¬ 399 < reply.httpCode := by
    have hle : ¬ 299 < reply.httpCode := of_decide_eq_false h
    omega
  refine ⟨{ response.parent with
    httpCode := reply.httpCode, httpStatus := reply.httpStatus }, rfl, ?_⟩
  change AtmosFilter.After.parseAtmosError env reply method _ = _
  rw [AtmosFilter.After.parseAtmosError, if_neg hcode, ite_self]

/-- What is done with the answer to an operation that succeeds: its filters parse, one after
the other. -/
theorem receive_eq_of_success {env : ReplyEnv} {reply : Reply} {op : Operation} {call : Call}
    (hcall : op.call env.toEnv = some call) (hsuccess : aboveSuccess reply.httpCode = false)
    (response : Response) :
    ∃ parent, parent.httpCode = reply.httpCode ∧
      call.receive env reply response =
        (op.family.filters.filter (·.worksAfter)).foldlM
          (fun response f => f.after env reply call.request.parent.method response)
          ⟨parent, response.data⟩ := by
  obtain ⟨parent, hcode, herrors⟩ := @afterErrors_of_success env reply hsuccess
    call.request.parent.method response
  refine ⟨parent, hcode, ?_⟩
  rw [receive_eq env reply hcall, herrors]
  change List.foldlM _ _ op.family.filters = _
  exact foldlM_filter _ (fun f hf r =>
    after_of_not_works env reply call.request.parent.method hf r) _ _

/-- An operation with one filter that parses. -/
theorem receive_of_success {env : ReplyEnv} {reply : Reply} {op : Operation} {call : Call}
    (hcall : op.call env.toEnv = some call) {f : RestFilter}
    (hfilters : op.family.filters.filter (·.worksAfter) = [f])
    (hsuccess : aboveSuccess reply.httpCode = false) :
    ∃ parent, parent.httpCode = reply.httpCode ∧
      call.receive env reply op.response =
        f.after env reply call.request.parent.method ⟨parent, op.family.data⟩ := by
  obtain ⟨parent, hcode, hreceive⟩ := receive_eq_of_success hcall hsuccess op.response
  refine ⟨parent, hcode, ?_⟩
  rw [hreceive, hfilters, List.foldlM_cons]
  exact bind_pure _

/-- **Reading an object**: whatever request was sent with the entries, lookups in the
response find them. -/
theorem receive_finds {env : ReplyEnv} {reply : Reply} {rest : RestClient} {utf8 : Bool}
    {write : AtmosWriteObjectRequest} {sent : List CStr} (hcurl : env.curl.Documented)
    (hstorable : Storable utf8 write) (hholds : HoldsWrite rest utf8 write sent)
    (hreports : Reports rest sent env reply) {reader : Operation} {call : Call}
    (hcall : reader.call env.toEnv = some call) (hreader : reader.family ∈ objectReaders) :
    ∃ result, call.receive env reply reader.response = .ok result ∧
      result.data.Finds write reader.family := by
  simp only [objectReaders, List.mem_cons, List.not_mem_nil, or_false] at hreader
  rcases hreader with hfamily | hfamily | hfamily <;> rw [hfamily]
  · obtain ⟨parent, hcode, hreceive⟩ := receive_of_success hcall
      (hfamily ▸ rfl : reader.family.filters.filter _ = [.parseReadObjectResponse])
      hreports.success
    have hpassed : aboveSuccess parent.httpCode = false := hcode ▸ hreports.success
    obtain ⟨self, hparse, hshows, hshows', hacl⟩ :=
      readObject_parse_finds hcurl hstorable hholds hreports
    refine ⟨⟨parent, .readObject self⟩, ?_, fun name listable => ?_, hacl⟩
    · rw [hreceive, hfamily, RestFilter.after, AtmosFilter.After.parseReadObjectResponse,
        parseUnless, if_neg (Bool.eq_false_iff.mp hpassed), Operation.Family.data]
      dsimp only
      rw [hparse]
      rfl
    · cases listable with
      | false => exact findsMetadata_of_shows hshows name
      | true => exact findsMetadata_of_shows hshows' name
  · obtain ⟨parent, hcode, hreceive⟩ := receive_of_success hcall
      (hfamily ▸ rfl : reader.family.filters.filter _ = [.parseGetUserMetaResponse])
      hreports.success
    have hpassed : aboveSuccess parent.httpCode = false := hcode ▸ hreports.success
    obtain ⟨metadata, listableMeta, hparse, hshows, hshows'⟩ :=
      parseUserMetaHeaders_shows hcurl hstorable hholds hreports
    refine ⟨⟨parent, .getUserMeta metadata listableMeta⟩, ?_, fun name listable => ?_⟩
    · rw [hreceive, hfamily, RestFilter.after, AtmosFilter.After.parseGetUserMetaResponse,
        parseUnless, if_neg (Bool.eq_false_iff.mp hpassed), Operation.Family.data]
      dsimp only
      rw [hparse]
      rfl
    · cases listable with
      | false => exact findsMetadata_of_shows hshows name
      | true => exact findsMetadata_of_shows hshows' name
  · obtain ⟨parent, hcode, hreceive⟩ := receive_of_success hcall
      (hfamily ▸ rfl : reader.family.filters.filter _ = [.parseGetAclResponse])
      hreports.success
    have hpassed : aboveSuccess parent.httpCode = false := hcode ▸ hreports.success
    have hslots : (List.replicate atmosAclCountMax zeroedAcl).length = atmosAclCountMax :=
      List.length_replicate
    obtain ⟨acl, hparse, hfinds⟩ := parseAclHeaders_finds hstorable.acl hstorable.acl_count
      (hreports.acl.trans hholds.acl) hreports.acl_fits hslots
    refine ⟨⟨parent, .getAcl acl⟩, ?_, hfinds⟩
    rw [hreceive, hfamily, RestFilter.after, AtmosFilter.After.parseGetAclResponse,
      parseUnless, if_neg (Bool.eq_false_iff.mp hpassed), Operation.Family.data]
    dsimp only [zeroedArrays]
    rw [hparse]
    rfl

/-! ## From writing to looking up -/

/-- **What is written with an object is found on it.**  A create or update operation, or one
that sets metadata, has sent the entries of its request; a read operation of any client gets
a response that reports them.  Then every lookup in that response gives the value, or the
permission, in the first matching entry of the request. -/
theorem object_lookups {sender : Env} {env : ReplyEnv} (hsender : sender.curl.Documented)
    (hcurl : env.curl.Documented) {op reader : Operation} {call call' : Call}
    {write : AtmosWriteObjectRequest} {response : AtmosResponse} {x : Exchange}
    {sent : RestRequest} {reply : Reply} (hcall : op.call sender = some call)
    (hop : op.family ∈ objectWriters) (hwrite : call.request.fields.asWrite = some write)
    (hnew : ∀ name ∈ objectHeaderNames, linesNamed name call.request.parent.headers = [])
    (hstorable : Storable sender.atmos.enableUtf8Metadata write)
    (h : call.execute sender response = some (.next x)) (hsent : Event.sent sent ∈ x.trace)
    (hreader : reader.family ∈ objectReaders) (hcall' : reader.call env.toEnv = some call')
    (hreports : Reports sender.rest sent.headers env reply) :
    ∃ result, call'.receive env reply reader.response = .ok result ∧
      result.data.Finds write reader.family := by
  have hholds := holdsWrite_sent hsender hstorable fun name hname =>
    linesNamed_written hcall hop hwrite h hsent hname (hnew name hname)
  exact receive_finds hcurl hstorable hholds hreports hcall' hreader

/-- A new photo. -/
def photo : AtmosWriteObjectRequest where
  metadata := [⟨bytes "title", bytes "a, b"⟩, ⟨bytes "title", bytes "c"⟩]
  listableMeta := [⟨bytes "color", bytes "red"⟩]
  acl := [⟨bytes "staff", .group, .full⟩, ⟨bytes "other", .group, .read⟩,
    ⟨bytes "mary", .user, .full⟩]
  checksum := none

theorem storable_photo : Storable true photo where
  metadata := by
    intro e he
    rcases List.mem_cons.mp he with rfl | he
    · exact ⟨⟨by decide, by decide, by decide⟩, ⟨by decide, by decide, by decide, by decide⟩⟩
    · rw [List.mem_singleton.mp he]
      exact ⟨⟨by decide, by decide, by decide⟩, ⟨by decide, by decide, by decide, by decide⟩⟩
  listableMeta := by
    intro e he
    rw [List.mem_singleton.mp he]
    exact ⟨⟨by decide, by decide, by decide⟩, ⟨by decide, by decide, by decide, by decide⟩⟩
  acl := by
    intro e he hsent
    simp only [photo, List.mem_cons, List.not_mem_nil, or_false] at he
    rcases he with rfl | rfl | rfl
    · exact absurd hsent (by decide)
    · exact ⟨by decide, by decide, by decide, by decide, by decide,
        fun _ => AclPermission.noConfusion⟩
    · exact ⟨by decide, by decide, by decide, by decide, by decide,
        fun _ => AclPermission.noConfusion⟩
  metadata_count := by decide
  listableMeta_count := by decide
  acl_count := by decide

/-- The request that creates it. -/
def photoRequest : AtmosRequest where
  parent := RestRequest.init (bytes "/rest/objects") .post
  fields := .writeObject photo

/-- What the reader signs when it creates the photo. -/
def photoEnv : Env :=
  { readerEnv with openssl := .replay [readerRecording
      (bytes ("POST\napplication/octet-stream\n\nFri, 06 Mar 2026 09:15:30 GMT\n/rest/objects\n" ++
        "x-emc-groupacl:other=READ\nx-emc-listable-meta:color=red\n" ++
        "x-emc-meta:title=a%2C%20b,title=c\nx-emc-uid:0123abcd/reader\n" ++
        "x-emc-useracl:mary=FULL_CONTROL\nx-emc-utf8:true"))
      [163, 108, 185, 170, 28, 122, 54, 98, 211, 59, 24, 237, 82, 185, 30, 72, 198, 52, 32, 101]
      (bytes "o2y5qhx6NmLTOxjtUrkeSMY0IGU=")] }

/-- The answer to a request that reads it. -/
def photoReply : Reply where
  httpCode := 200
  httpStatus := bytes "OK"
  headers := [bytes "x-emc-meta: mtime=2026-03-06T09:15:31Z,size=3,title=a%2C%20b,title=c",
    bytes "x-emc-listable-meta: color=red", bytes "x-emc-utf8: true",
    bytes "x-emc-useracl: mary=FULL_CONTROL", bytes "x-emc-groupacl: other=READ"]
  body := none
  contentLength := 0
  fileBody := none

/-- The answer has what was sent. -/
theorem reports_photo {sent : List CStr} (hholds : HoldsWrite RestClient.plain true photo sent) :
    Reports RestClient.plain sent blindEnv photoReply where
  success := by decide
  mode := by
    rw [hholds.mode]
    decide +kernel
  metadata := by
    intro name hname
    have hfits : ∀ name ∈ [atmosHeaderMeta, atmosHeaderListableMeta],
        AllFields MetaFieldFits (metaFields blindEnv.rest photoReply.headers name) := by
      decide +kernel
    refine ⟨?_, hfits name hname⟩
    rcases List.mem_cons.mp hname with rfl | hname
    · rw [hholds.metadata]
      decide +kernel
    · rw [List.mem_singleton.mp hname, hholds.listableMeta]
      decide +kernel
  acl := hholds.acl.symm
  acl_fits := ⟨by decide +kernel, by decide +kernel⟩
  times := by
    intro value hvalue
    have hheader : photoReply.getHeaderValue blindEnv atmosHeaderMeta =
        some (bytes "mtime=2026-03-06T09:15:31Z,size=3,title=a%2C%20b,title=c") := by
      decide +kernel
    obtain rfl := Option.some.inj (hheader.symm.trans hvalue)
    decide +kernel

/-- Its first title is found, and what was given to Mary; the permission of the group of
staff was not sent. -/
theorem object_lookups_photo :
    ∃ result,
      (AtmosClient.headObject (bytes "4b1f")).receive blindEnv photoReply
        (Operation.headObject (bytes "4b1f")).response = .ok result ∧
      ∃ self, result.data = .readObject self ∧
        self.getMetadataValue (bytes "title") false = some (some (bytes "a, b")) ∧
        self.getMetadataValue (bytes "title") true = some none ∧
        self.getAclPermission (bytes "mary") .user = some .full ∧
        self.getAclPermission (bytes "staff") .group = some .none := by
  have hcall : (Operation.createObject photoRequest).call photoEnv =
      some (AtmosClient.createObject photoRequest) := rfl
  obtain ⟨x, hexecute⟩ := @execute_call_completes photoEnv photoRequest
    [.parseCreateResponse, .setWriteHeaders] (AtmosResponse.init .subclass) _ rfl (by decide)
  obtain ⟨sent, hsent⟩ := execute_sends (operation_ownFilters hcall) hexecute
  have hnew : ∀ name ∈ objectHeaderNames, linesNamed name photoRequest.parent.headers = [] :=
    fun _ _ => rfl
  have hholds : HoldsWrite RestClient.plain true photo sent.headers :=
    @holdsWrite_sent photoEnv Curl.standard_documented _ storable_photo _ fun name hname =>
      linesNamed_written hcall (by decide) rfl hexecute hsent hname (hnew name hname)
  obtain ⟨result, hreceive, hfinds⟩ := @object_lookups photoEnv blindEnv
    Curl.standard_documented Curl.standard_documented (.createObject photoRequest)
    (.headObject (bytes "4b1f")) _ _ photo _ x sent photoReply hcall (by decide) rfl hnew
    storable_photo hexecute hsent (by decide) rfl (reports_photo hholds)
  refine ⟨result, hreceive, ?_⟩
  cases hdata : result.data with
  | readObject self =>
      rw [hdata] at hfinds
      exact ⟨self, rfl, hfinds.1 _ _, hfinds.1 _ _, hfinds.2 _ _, hfinds.2 _ _⟩
  | _ =>
      rw [hdata] at hfinds
      exact False.elim hfinds

/-! ## Access control lists -/

/-- The list that an operation sets. -/
def Operation.aclSet : Operation → Option (List AtmosAclEntry)
  | setAcl _ acl | setAclNs _ acl | setAclKeypool _ _ acl => some acl
  | _ => none

/-- The request with the headers for a list. -/
theorem headers_setAclHeaders {acl : List AtmosAclEntry} {uri : CStr} {request : RestRequest}
    (h : AtmosClient.setAclHeaders acl (RestRequest.init uri .post) = some request) :
    request.headers = headerLine httpHeaderContentType (bytes "application/octet-stream") ::
      (aclHeaders acl).map Header.line := by
  rw [setAclHeader_headers h]
  rfl

/-- What is sent under the names of the two headers. -/
theorem linesNamed_aclSet {env : Env} {op : Operation} {call : Call}
    {acl : List AtmosAclEntry} {response : AtmosResponse} {x : Exchange} {sent : RestRequest}
    (hacl : op.aclSet = some acl) (hcall : op.call env = some call)
    (h : call.execute env response = some (.next x)) (hsent : Event.sent sent ∈ x.trace)
    {name : CStr} (hname : name ∈ [atmosHeaderUserAcl, atmosHeaderGroupAcl]) :
    linesNamed name sent.headers = linesNamed name ((aclHeaders acl).map Header.line) := by
  have hnames : ∀ name ∈ [atmosHeaderUserAcl, atmosHeaderGroupAcl],
      emcPrefix <+: ByteText.lowercase name ∧
      ByteText.lowercase atmosHeaderSignature ≠ ByteText.lowercase name ∧
      ByteText.lowercase atmosHeaderUid ≠ ByteText.lowercase name ∧
      ByteText.lowercase httpHeaderContentType ≠ ByteText.lowercase name ∧
      ByteText.lowercase atmosHeaderPool ≠ ByteText.lowercase name := by decide
  obtain ⟨hemc, hsignature, huid, htype, hpool⟩ := hnames name hname
  have htypeLine : linesNamed name
      [headerLine httpHeaderContentType (bytes "application/octet-stream")] = [] :=
    linesNamed_other (by decide) htype _
  have hpoolLine : ∀ pool, linesNamed name [poolHeader pool] = [] := fun pool => by
    rw [poolHeader_eq]
    exact linesNamed_other (by decide) hpool _
  have huidLine : linesNamed name [uidLine env] = [] := linesNamed_other (by decide) huid _
  -- the filters of the operation add nothing
  have hsentLines : op.family = .setAcl →
      linesNamed name sent.headers = linesNamed name call.request.parent.headers := by
    intro hfamily
    rw [call_eq hcall, hfamily] at h
    obtain ⟨y, hrun, -, hlines⟩ := linesNamed_sent hemc hsignature (by decide) h hsent
    obtain ⟨s, hparse, hnil⟩ := run_cons_eq_next.mp hrun
    cases hparse
    cases hnil
    rw [hlines, huidLine, List.append_nil]
  cases op with
  | setAcl objectId acl' =>
      cases hacl
      obtain ⟨request, hrequest, hfinish⟩ := Option.bind_eq_some_iff.mp hcall
      cases hfinish
      rw [hsentLines rfl]
      change linesNamed name request.headers = _
      rw [headers_setAclHeaders hrequest, ← List.singleton_append, linesNamed_append, htypeLine]
      rfl
  | setAclNs path acl' =>
      cases hacl
      obtain ⟨request, hrequest, hfinish⟩ := Option.bind_eq_some_iff.mp hcall
      cases hfinish
      rw [hsentLines rfl]
      change linesNamed name request.headers = _
      rw [headers_setAclHeaders hrequest, ← List.singleton_append, linesNamed_append, htypeLine]
      rfl
  | setAclKeypool pool key acl' =>
      cases hacl
      obtain ⟨request, hrequest, hfinish⟩ := Option.bind_eq_some_iff.mp hcall
      cases hfinish
      rw [hsentLines rfl]
      change linesNamed name (request.headers ++ [poolHeader pool]) = _
      rw [headers_setAclHeaders hrequest, linesNamed_append, hpoolLine, List.append_nil,
        ← List.singleton_append, linesNamed_append, htypeLine]
      rfl
  | _ => cases hacl

/-- **A list that is set is the list that is looked up.**  An operation that sets the access
control list of an object has been executed, and the response to one that gets it has the
entries that were sent.  Then every principal has the permission of its first entry in the
list; of the groups, only `other` has one. -/
theorem acl_lookups {sender : Env} {env : ReplyEnv} {op reader : Operation}
    {call call' : Call} {acl : List AtmosAclEntry} {response : AtmosResponse} {x : Exchange}
    {sent : RestRequest} {reply : Reply} (hacl : op.aclSet = some acl)
    (hcall : op.call sender = some call)
    (hsendable : ∀ e ∈ acl, e.isSent = true → SendableAcl e)
    (hcount : acl.length ≤ atmosAclCountMax)
    (h : call.execute sender response = some (.next x)) (hsent : Event.sent sent ∈ x.trace)
    (hreader : reader.family = .getAcl) (hcall' : reader.call env.toEnv = some call')
    (hsuccess : aboveSuccess reply.httpCode = false)
    (hitems : aclItems env.rest reply.headers = aclItems sender.rest sent.headers)
    (hfits : AclFieldsFit env.rest reply.headers) :
    ∃ result array, call'.receive env reply reader.response = .ok result ∧
      result.data = .getAcl array ∧ ∀ principal principalType,
        AtmosGetAclResponse.getAclPermission array principal principalType =
          some (givenPermission acl principal principalType) := by
  have hsentItems := hitems.trans (aclItems_of_lines hsendable fun name hname =>
    linesNamed_aclSet hacl hcall h hsent hname)
  obtain ⟨parent, hcode, hreceive⟩ := receive_of_success hcall'
    (hreader ▸ rfl : reader.family.filters.filter _ = [.parseGetAclResponse]) hsuccess
  have hpassed : aboveSuccess parent.httpCode = false := hcode ▸ hsuccess
  have hslots : (List.replicate atmosAclCountMax zeroedAcl).length = atmosAclCountMax :=
    List.length_replicate
  obtain ⟨array, hparse, hfinds⟩ :=
    parseAclHeaders_finds hsendable hcount hsentItems hfits hslots
  refine ⟨⟨parent, .getAcl array⟩, array, ?_, rfl, hfinds⟩
  rw [hreceive, hreader, RestFilter.after, AtmosFilter.After.parseGetAclResponse,
    parseUnless, if_neg (Bool.eq_false_iff.mp hpassed), Operation.Family.data]
  dsimp only [zeroedArrays]
  rw [hparse]
  rfl

/-- A list with two entries for Mary. -/
def marysAcl : List AtmosAclEntry :=
  [⟨bytes "mary", .user, .read⟩, ⟨bytes "other", .group, .none⟩, ⟨bytes "mary", .user, .full⟩]

/-- What the reader signs when it sets this list. -/
def marysEnv : Env :=
  { readerEnv with openssl := .replay [readerRecording
      (bytes ("POST\napplication/octet-stream\n\nFri, 06 Mar 2026 09:15:30 GMT\n" ++
        "/rest/objects/4b1f?acl\nx-emc-groupacl:other=NONE\nx-emc-uid:0123abcd/reader\n" ++
        "x-emc-useracl:mary=READ, mary=FULL_CONTROL"))
      [163, 140, 219, 10, 241, 108, 22, 55, 53, 125, 220, 226, 24, 208, 110, 95, 178, 254, 159, 226]
      (bytes "o4zbCvFsFjc1fdziGNBuX7L+n+I=")] }

/-- The answer to a request for it. -/
def marysReply : Reply :=
  { photoReply with headers := [bytes "x-emc-groupacl: other=NONE",
      bytes "x-emc-useracl: mary=READ, mary=FULL_CONTROL"] }

/-- The first entry for Mary counts. -/
theorem acl_lookups_mary :
    ∃ result array, (AtmosClient.getAcl (bytes "4b1f")).receive blindEnv marysReply
        (Operation.getAcl (bytes "4b1f")).response = .ok result ∧
      result.data = .getAcl array ∧
      AtmosGetAclResponse.getAclPermission array (bytes "mary") .user = some .read := by
  obtain ⟨call, hcall⟩ : ∃ call,
      (Operation.setAcl (bytes "4b1f") marysAcl).call marysEnv = some call := ⟨_, rfl⟩
  have hsendable : ∀ e ∈ marysAcl, e.isSent = true → SendableAcl e := by
    intro e he _
    simp only [marysAcl, List.mem_cons, List.not_mem_nil, or_false] at he
    rcases he with rfl | rfl | rfl <;>
      exact ⟨by decide, by decide, by decide, by decide, by decide,
        fun _ => AclPermission.noConfusion⟩
  obtain ⟨x, hexecute⟩ : ∃ x, call.execute marysEnv (AtmosResponse.init .atmosResponse) =
      some (.next x) := by
    obtain rfl := Option.some.inj hcall
    exact @execute_call_completes marysEnv _ [.parseGetAclResponse] _ _ rfl (by decide)
  obtain ⟨sent, hsent⟩ := execute_sends (operation_ownFilters hcall) hexecute
  have hitems : aclItems RestClient.plain sent.headers =
      (aclUsers marysAcl ++ aclOthers marysAcl).map sentItem :=
    aclItems_of_lines hsendable fun name hname =>
      linesNamed_aclSet rfl hcall hexecute hsent hname
  obtain ⟨result, array, hreceive, hdata, hfinds⟩ := @acl_lookups marysEnv blindEnv
    (.setAcl (bytes "4b1f") marysAcl) (.getAcl (bytes "4b1f")) _ _ marysAcl _ x sent marysReply
    rfl hcall hsendable (by decide) hexecute hsent rfl rfl (by decide) hitems.symm
    ⟨by decide +kernel, by decide +kernel⟩
  exact ⟨result, array, hreceive, hdata, hfinds _ _⟩

end Atmos
