import Atmos.CanonicalPresentation
import Atmos.SignatureCoverage

/-!
# Reissuing a request

The header of the library says how a listing goes on: set the token on the
request and reissue it.  The filters append their headers to the request
object, and nothing takes them off again, so a reissued request carries those
of all executions before.

* `executed_uids` — after `n` executions a request has `n` lines with the
  `uid`;
* `run_fieldHeaders` — what the filters of an operation add to an object for
  its fields;
* `signsConfiguration_of_carried` — a request that carries the configured
  headers signs them, and only them;
* `reissued_signs_configuration_iff` — only the first execution does so.
-/

namespace Atmos

open ByteText FixedMemory FilterChain

/-! ## Names of signed lines -/

/-- Whether a header is an `x-emc` header. -/
def Header.isEmc (h : Header) : Bool := emcPrefix.isPrefixOf (ByteText.lowercase h.name)

/-- The line that is signed for an `x-emc` header. -/
def Header.canonical (h : Header) : CStr := h.name ++ colon :: squeeze .gap (space :: h.value)

/-- The names of the signed lines. -/
def signedNames (headers : List CStr) : List CStr := (signedLines headers).map headerName

/-- Names the library uses: `x-emc` names and others. -/
structure IsKnownName (name : CStr) : Prop where
  colon_notMem : colon ∉ name
  emc : emcPrefix.isPrefixOf (ByteText.lowercase name) = true → IsEmcName name

theorem isKnownName {name : CStr} (h : name ∈ atmosHeaderPool :: filterHeaderNames) :
    IsKnownName name := by
  have hall : ∀ name ∈ atmosHeaderPool :: filterHeaderNames, colon ∉ name ∧
      (emcPrefix.isPrefixOf (ByteText.lowercase name) = true →
        IsWord name ∧ ByteText.lowercase name = name) := by decide
  obtain ⟨hcolon, hemc⟩ := hall name h
  refine ⟨hcolon, fun hprefix => ?_⟩
  obtain ⟨hword, hlower⟩ := hemc hprefix
  refine ⟨hword, hlower, ?_⟩
  rw [hlower] at hprefix
  exact List.isPrefixOf_iff_prefix.mp hprefix

theorem normalisedEmcLines_header {h : Header} (hname : IsKnownName h.name) :
    normalisedEmcLines [h.line] = if h.isEmc then [h.canonical] else [] := by
  rw [Header.line, headerLine_eq]
  split
  · rename_i hemc
    exact normalisedEmcLines_emc (hname.emc hemc) _
  · rename_i hemc
    apply normalisedEmcLines_eq_nil
    intro line hmem
    rw [List.mem_singleton.mp hmem, isEmcHeader_line, ← List.isPrefixOf_iff_prefix]
    exact hemc

/-- Known headers give the lines of the `x-emc` headers among them. -/
theorem normalisedEmcLines_map_line {headers : List Header}
    (hnames : ∀ h ∈ headers, IsKnownName h.name) :
    normalisedEmcLines (headers.map Header.line) =
      (headers.filter Header.isEmc).map Header.canonical := by
  induction headers with
  | nil => rfl
  | cons h headers ih =>
      have hhead := normalisedEmcLines_header (hnames h (List.mem_cons_self ..))
      have htail := ih fun header hmem => hnames header (List.mem_cons_of_mem h hmem)
      rw [List.map_cons, List.filter_cons, ← List.singleton_append,
        normalisedEmcLines_append, hhead, htail]
      split <;> rfl

theorem count_signedNames (headers : List CStr) (name : CStr) :
    (signedNames headers).count name =
      ((normalisedEmcLines headers).map headerName).count name :=
  ((sortTexts_perm _).map headerName).count_eq name

theorem count_signedNames_append (headers headers' : List CStr) (name : CStr) :
    (signedNames (headers ++ headers')).count name =
      (signedNames headers).count name + (signedNames headers').count name := by
  rw [count_signedNames, count_signedNames, count_signedNames, normalisedEmcLines_append,
    List.map_append, List.count_append]

theorem canonicalLine_header {h : Header} (hname : IsEmcName h.name) :
    canonicalLine h.line = some h.canonical := by
  rw [Header.line, headerLine_eq]
  exact canonicalLine_emc hname _

theorem headerName_canonical {h : Header} (hname : IsKnownName h.name) :
    headerName h.canonical = h.name :=
  headerName_append hname.colon_notMem _

/-! ## Default filters -/

theorem isEmcName_uid : IsEmcName atmosHeaderUid where
  word := by decide
  lower := by decide
  emc := by decide

/-- The line that is signed for the `uid`. -/
def uidCanonical (env : Env) : CStr :=
  atmosHeaderUid ++ colon :: squeeze .gap (env.atmos.uid.take (atmosSimpleHeaderMax - 11))

theorem headerName_uidCanonical (env : Env) : headerName (uidCanonical env) = atmosHeaderUid :=
  headerName_append isEmcName_uid.colon_notMem _

/-- The default filters add one signed line, the `uid`. -/
theorem normalisedEmcLines_requestToSign (env : Env) (request : RestRequest) :
    normalisedEmcLines (requestToSign env request).headers =
      normalisedEmcLines request.headers ++ [uidCanonical env] := by
  have hdate : normalisedEmcLines [dateLine env] = [] := by
    apply normalisedEmcLines_eq_nil
    intro line hmem
    rw [List.mem_singleton.mp hmem, dateLine, isEmcHeader_line]
    decide
  have huid : normalisedEmcLines [uidLine env] = [uidCanonical env] :=
    normalisedEmcLines_emc isEmcName_uid _
  obtain ⟨content, hcontent, hheaders⟩ := requestToSign_headers env request
  have hnone : normalisedEmcLines content = [] :=
    normalisedEmcLines_eq_nil fun line hmem => (hcontent line hmem).2
  rw [hheaders, normalisedEmcLines_append, normalisedEmcLines_append, hnone, List.append_nil,
    ← List.singleton_append, normalisedEmcLines_append, hdate, huid, List.nil_append]

theorem count_uid_requestToSign (env : Env) (request : RestRequest) :
    (signedNames (requestToSign env request).headers).count atmosHeaderUid =
      (signedNames request.headers).count atmosHeaderUid + 1 := by
  rw [count_signedNames, count_signedNames, normalisedEmcLines_requestToSign,
    List.map_append, List.count_append, List.map_singleton, headerName_uidCanonical,
    List.count_singleton_self]

/-! ## Reissuing -/

/-- The request objects that can be executed again, by their operation. -/
inductive RequestKind where
  | listDirectory
  | listObjects
  | listVersions
  | getListableTags
  | listAccessTokens
  | readObject
  | updateObject
  | createObject
  deriving DecidableEq, Repr

namespace RequestKind

/-- The operation that executes the request. -/
def call : RequestKind → AtmosRequest → Call
  | listDirectory => AtmosClient.listDirectory
  | listObjects => AtmosClient.listObjects
  | listVersions => AtmosClient.listVersions
  | getListableTags => AtmosClient.getListableTags
  | listAccessTokens => AtmosClient.listAccessTokens
  | readObject => AtmosClient.readObject
  | updateObject => AtmosClient.updateObject
  | createObject => AtmosClient.createObject

/-- Whether the fields belong to the class of the request. -/
def accepts : RequestKind → RequestFields → Bool
  | listDirectory, .listDirectory _ _ => true
  | listObjects, .listObjects _ _ _ => true
  | listVersions, .paginated _ => true
  | getListableTags, .getListableTags _ _ => true
  | listAccessTokens, .paginated _ => true
  | readObject, .readObject _ => true
  | updateObject, .updateObject _ _ => true
  | createObject, .writeObject _ => true
  | _, _ => false

end RequestKind

/-- A request object after its `…_init` function, with the pool it was made
for. -/
inductive IsNew : RequestKind → Option CStr → AtmosRequest → Prop
  | listDirectory {path : CStr} {request : AtmosRequest}
      (h : AtmosListDirectoryRequest.init path = some request) :
      IsNew .listDirectory none request
  | listObjects {tag : CStr} {request : AtmosRequest}
      (h : AtmosListObjectsRequest.init tag = some request) : IsNew .listObjects none request
  | listVersions (objectId : CStr) :
      IsNew .listVersions none (AtmosListVersionsRequest.init objectId)
  | getListableTags {parentTag : CStr} {request : AtmosRequest}
      (h : AtmosGetListableTagsRequest.init parentTag = some request) :
      IsNew .getListableTags none request
  | listAccessTokens : IsNew .listAccessTokens none AtmosListAccessTokensRequest.init
  | readObject (objectId : CStr) :
      IsNew .readObject none (AtmosReadObjectRequest.init objectId)
  | readObjectNs {path : CStr} {request : AtmosRequest}
      (h : AtmosReadObjectRequest.initNs path = some request) : IsNew .readObject none request
  | readObjectKeypool (pool key : CStr) :
      IsNew .readObject (some pool) (AtmosReadObjectRequest.initKeypool pool key)
  | headObject (objectId : CStr) :
      IsNew .readObject none (AtmosReadObjectRequest.initHead objectId)
  | headObjectNs {path : CStr} {request : AtmosRequest}
      (h : AtmosReadObjectRequest.initNsHead path = some request) :
      IsNew .readObject none request
  | headObjectKeypool (pool key : CStr) :
      IsNew .readObject (some pool) (AtmosReadObjectRequest.initKeypoolHead pool key)
  | updateObject (objectId : CStr) :
      IsNew .updateObject none (AtmosUpdateObjectRequest.init objectId)
  | updateObjectNs {path : CStr} {request : AtmosRequest}
      (h : AtmosUpdateObjectRequest.initNs path = some request) :
      IsNew .updateObject none request
  | updateObjectKeypool (pool key : CStr) :
      IsNew .updateObject (some pool) (AtmosUpdateObjectRequest.initKeypool pool key)
  | createObject : IsNew .createObject none AtmosCreateObjectRequest.init
  | createObjectNs {path : CStr} {request : AtmosRequest}
      (h : AtmosCreateObjectRequest.initNs path = some request) :
      IsNew .createObject none request
  | createObjectKeypool (pool key : CStr) :
      IsNew .createObject (some pool) (AtmosCreateObjectRequest.initKeypool pool key)

/-- One execution of a request object: the client and the time, and what the
application has put into the fields and the body. -/
structure Issue (kind : RequestKind) where
  env : Env
  fields : RequestFields
  accepts : kind.accepts fields = true
  body : Option RequestBody
  response : AtmosResponse

namespace Issue

variable {kind : RequestKind} (issue : Issue kind)

/-- The object as the application executes it. -/
def prepare (request : AtmosRequest) : AtmosRequest :=
  request.configure issue.fields issue.body

/-- The execution. -/
def execute (request : AtmosRequest) : Option (Step Exchange Exchange) :=
  (kind.call (issue.prepare request)).execute issue.env issue.response

end Issue

/-- A request object after a number of executions that sent it. -/
inductive Executed (kind : RequestKind) (new : AtmosRequest) : Nat → AtmosRequest → Prop
  | zero : Executed kind new 0 new
  | succ {n : Nat} {request : AtmosRequest} {x : Exchange} (issue : Issue kind)
      (hrun : Executed kind new n request) (h : issue.execute request = some (.next x)) :
      Executed kind new (n + 1) x.request

/-- The filters an operation adds to the default ones. -/
def RequestKind.filters : RequestKind → List RestFilter
  | listDirectory => [.parseReadObjectResponse, .listDirectory, .setPaginationHeaders]
  | listObjects => [.listObjects, .setPaginationHeaders]
  | listVersions => [.listVersions, .setPaginationHeaders]
  | getListableTags => [.setPaginationHeaders, .getListableTags]
  | listAccessTokens => [.setPaginationHeaders, .parseListAccessTokensResponse]
  | readObject => [.setReadObjectHeaders, .parseReadObjectResponse]
  | updateObject => [.setWriteHeaders, .updateObject]
  | createObject => [.parseCreateResponse, .setWriteHeaders]

theorem RequestKind.call_eq (kind : RequestKind) (request : AtmosRequest) :
    kind.call request = AtmosClient.call request kind.filters := by
  cases kind <;> rfl

theorem RequestKind.filters_own (kind : RequestKind) :
    ∀ f ∈ kind.filters, f.isDefault = false := by
  cases kind <;> decide

/-- The exchange an execution starts with. -/
def Issue.start {kind : RequestKind} (issue : Issue kind) (request : AtmosRequest) : Exchange where
  request := issue.prepare request
  response := issue.response
  trace := []

/-- An execution that sends its request runs its own filters, signs and
sends. -/
theorem issue_eq_next {kind : RequestKind} {issue : Issue kind} {request : AtmosRequest}
    {x : Exchange} (h : issue.execute request = some (.next x)) :
    ∃ y hashString,
      run (kind.filters.reverse.map (RestFilter.before issue.env)) (issue.start request) =
        some (.next y) ∧
      AtmosClient.canonicalizeRequest issue.env.rest (requestToSign issue.env y.request.parent) =
        some hashString ∧
      x = y.signedAndSent issue.env hashString := by
  rw [Issue.execute, RequestKind.call_eq] at h
  exact execute_call_eq_next.mp h

theorem issue_ownFilters {kind : RequestKind} {issue : Issue kind} {request : AtmosRequest}
    {y : Exchange}
    (h : run (kind.filters.reverse.map (RestFilter.before issue.env)) (issue.start request) =
      some (.next y)) : AppendsFilterHeaders (issue.start request) y := by
  apply run_operationFilters ?_ h
  intro f hf
  exact kind.filters_own f (List.mem_reverse.mp hf)

theorem signed_mem (env : Env) (y : Exchange) (hashString : CStr) :
    Event.signed (requestToSign env y.request.parent) hashString ∈
      (y.signedAndSent env hashString).trace :=
  List.mem_append_right _ (List.mem_cons_self ..)

/-- What was signed on the way. -/
theorem eq_of_signed_mem {env : Env} {y : Exchange} {text hashString : CStr}
    {signed : RestRequest} (htrace : y.trace = [])
    (h : Event.signed signed hashString ∈ (y.signedAndSent env text).trace) :
    signed = requestToSign env y.request.parent ∧ hashString = text := by
  rw [Exchange.signedAndSent, htrace] at h
  rcases List.mem_cons.mp h with heq | hmem
  · cases heq
    exact ⟨rfl, rfl⟩
  · cases List.mem_singleton.mp hmem

/-- An execution signs one more line with the `uid` than the object carried. -/
theorem count_uid_of_appends {env : Env} {x y : Exchange} (h : AppendsFilterHeaders x y) :
    (signedNames x.headers).count atmosHeaderUid + 1 ≤
      (signedNames (requestToSign env y.request.parent).headers).count atmosHeaderUid := by
  obtain ⟨headers, -, happends⟩ := h
  have hheaders : y.request.parent.headers = x.headers ++ headers.map Header.line :=
    happends.headers
  rw [count_uid_requestToSign, hheaders, count_signedNames_append]
  omega

/-- **The lines pile up.**  After `n` executions an object has at least `n`
lines with the `uid`. -/
theorem executed_uids {kind : RequestKind} {new request : AtmosRequest} {n : Nat}
    (h : Executed kind new n request) :
    n ≤ (signedNames request.parent.headers).count atmosHeaderUid := by
  induction h with
  | zero => exact Nat.zero_le _
  | succ issue hrun h ih =>
      rename_i n request x
      obtain ⟨y, hashString, hown, -, rfl⟩ := issue_eq_next h
      have hstep := @count_uid_of_appends issue.env _ _ (issue_ownFilters hown)
      have hsent : (y.signedAndSent issue.env hashString).request.parent.headers =
          (requestToSign issue.env y.request.parent).headers ++
            [signatureLine issue.env hashString] := rfl
      have hstart : (issue.start request).headers = request.parent.headers := rfl
      rw [hstart] at hstep
      rw [hsent, count_signedNames_append]
      omega

/-! ## The first execution -/

/-- The header of a pool. -/
def poolHeaders (pool : Option CStr) : List Header :=
  pool.toList.map fun pool => ⟨atmosHeaderPool, pool⟩

/-- The headers of a write request. -/
def writeHeaders (env : Env) (body : Option RequestBody) (write : AtmosWriteObjectRequest) :
    List Header :=
  contentTypeHeaders body ++ objectHeaders env write.metadata write.listableMeta write.acl ++
    checksumHeaders env.openssl body write.checksum

/-- The headers for the fields of a request. -/
def fieldHeaders (env : Env) (body : Option RequestBody) : RequestFields → List Header
  | .writeObject write => writeHeaders env body write
  | .updateObject write range => rangeHeaders range ++ writeHeaders env body write
  | .readObject range => rangeHeaders range ++ utf8Headers env
  | .paginated page => pageHeaders page
  | .listDirectory page listed =>
      pageHeaders page ++ (utf8Headers env ++ listedHeaders env listed)
  | .listObjects page tag listed =>
      pageHeaders page ++ (utf8Headers env ++
        (tagsHeaders env.curl env.atmos.enableUtf8Metadata [tag] ++ listedHeaders env listed))
  | .getListableTags page parentTag =>
      parentTagHeaders parentTag ++ utf8Headers env ++ pageHeaders page
  | _ => []

/-- The headers that are configured for an execution: the pool of the object
and the fields. -/
def Issue.configured {kind : RequestKind} (issue : Issue kind) (pool : Option CStr) :
    List Header :=
  poolHeaders pool ++ fieldHeaders issue.env issue.body issue.fields

theorem newRequest_headers {kind : RequestKind} {pool : Option CStr} {new : AtmosRequest}
    (h : IsNew kind pool new) :
    new.parent.headers = (poolHeaders (pool.map (·.take 1011))).map Header.line := by
  have hns : ∀ {method size suffix fields path request},
      AtmosRequest.initNs method size suffix fields path = some request →
        request.parent.headers = [] := by
    intro method size suffix fields path request h
    unfold AtmosRequest.initNs at h
    split at h
    · cases h
    · cases h
      rfl
  have hkeypool : ∀ method size suffix fields pool key,
      (AtmosRequest.initKeypool method size suffix fields pool key).parent.headers =
        [Header.line ⟨atmosHeaderPool, pool.take 1011⟩] := by
    intro method size suffix fields pool key
    rw [← poolHeader_eq]
    rfl
  cases h with
  | listVersions | listAccessTokens | readObject | headObject | updateObject | createObject =>
      rfl
  | readObjectNs h | headObjectNs h | updateObjectNs h | createObjectNs h => exact hns h
  | readObjectKeypool pool key | headObjectKeypool pool key | updateObjectKeypool pool key
  | createObjectKeypool pool key => exact hkeypool ..
  | listDirectory h =>
      unfold AtmosListDirectoryRequest.init at h
      split at h
      · cases h
      · split at h
        · cases h
        · cases h
          rfl
  | listObjects h =>
      unfold AtmosListObjectsRequest.init at h
      split at h
      · cases h
        rfl
      · cases h
  | getListableTags h =>
      unfold AtmosGetListableTagsRequest.init at h
      split at h
      · cases h
        rfl
      · cases h

/-- A header is missing where only others are. -/
theorem getHeader_map_line {headers : List Header} {name : CStr}
    (h : ∀ other ∈ headers, colon ∉ other.name ∧
      ByteText.lowercase other.name ≠ ByteText.lowercase name) :
    RestClient.getHeader (headers.map Header.line) name = none := by
  apply List.find?_eq_none.mpr
  intro line hmem
  obtain ⟨other, hother, rfl⟩ := List.mem_map.mp hmem
  obtain ⟨hcolon, hne⟩ := h other hother
  rw [Header.line, nameIs_headerLine hcolon]
  simpa using hne

theorem named_contentTypeHeaders (body : Option RequestBody) :
    Named [httpHeaderContentType] (contentTypeHeaders body) :=
  named_headerIf _ _ _

/-- On a request without a checksum header the filter for write requests adds
all its headers. -/
theorem setWriteHeaders_appends {env : Env} {x x' : Exchange} {prior : List Header}
    (hprior : x.headers = prior.map Header.line)
    (hnames : ∀ h ∈ prior, h.name = atmosHeaderPool ∨ h.name = httpHeaderRange)
    (h : AtmosFilter.setWriteHeaders env x = some (.next x')) :
    ∃ write, x.request.fields.asWrite = some write ∧
      Appends x x' ((writeHeaders env x.request.parent.requestBody write).map Header.line) := by
  obtain ⟨write, lines, hwrite, hlines, happends⟩ := setWriteHeaders_eq_next h
  refine ⟨write, hwrite, ?_⟩
  have hdistinct : ∀ other ∈ [atmosHeaderPool, httpHeaderRange, httpHeaderContentType,
        atmosHeaderMeta, atmosHeaderListableMeta, atmosHeaderUtf8, atmosHeaderUserAcl,
        atmosHeaderGroupAcl],
      ∀ name ∈ [atmosHeaderWschecksum, atmosHeaderGenerateChecksum],
        colon ∉ other ∧ ByteText.lowercase other ≠ ByteText.lowercase name := by decide
  have hobject := (named_contentTypeHeaders x.request.parent.requestBody).append
    (named_objectHeaders env write.metadata write.listableMeta write.acl)
  have hchecksum := named_checksumHeaders env.openssl x.request.parent.requestBody
    write.checksum
  have hmissing : (checksumHeaders env.openssl x.request.parent.requestBody
      write.checksum).filter (isMissing (x.headers ++ lines)) =
      checksumHeaders env.openssl x.request.parent.requestBody write.checksum := by
    apply List.filter_eq_self.mpr
    intro header hheader
    rw [hprior, hlines, ← List.map_append, isMissing, getHeader_map_line]
    · rfl
    intro other hother
    apply hdistinct _ ?_ _ (hchecksum.mem hheader)
    rcases List.mem_append.mp hother with hother | hother
    · rcases hnames other hother with hpool | hrange
      · rw [hpool]
        exact List.mem_cons_self ..
      · rw [hrange]
        exact List.mem_cons_of_mem _ (List.mem_cons_self ..)
    · exact List.mem_cons_of_mem _ (List.mem_cons_of_mem _ (hobject.mem hother))
  rw [hmissing, hlines, ← List.map_append] at happends
  exact happends

/-- The headers of two filters, one after the other. -/
theorem appends_both (x : Exchange) (headers headers' : List Header) :
    Appends x ((x.addHeaders (headers.map Header.line)).addHeaders (headers'.map Header.line))
      ((headers ++ headers').map Header.line) := by
  rw [List.map_append]
  exact (appends_addHeaders x _).trans (appends_addHeaders _ _)

/-- **The filters of an operation** add the headers for the fields to an object
that only carries its pool. -/
theorem run_fieldHeaders {kind : RequestKind} {issue : Issue kind} {request : AtmosRequest}
    {prior : List Header} {y : Exchange}
    (hprior : request.parent.headers = prior.map Header.line)
    (hpool : ∀ h ∈ prior, h.name = atmosHeaderPool)
    (hrun : run (kind.filters.reverse.map (RestFilter.before issue.env)) (issue.start request) =
      some (.next y)) :
    Appends (issue.start request) y
      ((fieldHeaders issue.env issue.body issue.fields).map Header.line) := by
  have haccepts := issue.accepts
  have hfields : (issue.start request).request.fields = issue.fields := rfl
  have hheaders : (issue.start request).headers = prior.map Header.line := hprior
  have hbody : (issue.start request).request.parent.requestBody = issue.body := rfl
  generalize issue.start request = x at *
  generalize issue.fields = fields at *
  cases kind with
  | listDirectory =>
      obtain ⟨s, hpage, hrun⟩ := run_cons_eq_next.mp hrun
      obtain ⟨t, hlist, hparse⟩ := run_pair_eq_next.mp hrun
      obtain ⟨page, hpaged, rfl⟩ := setPaginationHeaders_eq_next hpage
      obtain ⟨page', listed, hlisted, rfl⟩ := listDirectory_eq_next hlist
      cases hparse
      rw [Exchange.fields_addHeaders, hfields] at hlisted
      rw [hfields, hlisted] at hpaged
      cases hpaged
      rw [hlisted]
      exact appends_both x _ _
  | listObjects =>
      obtain ⟨s, hpage, hlist⟩ := run_pair_eq_next.mp hrun
      obtain ⟨page, hpaged, rfl⟩ := setPaginationHeaders_eq_next hpage
      obtain ⟨page', tag, listed, hlisted, rfl⟩ := listObjects_eq_next hlist
      rw [Exchange.fields_addHeaders, hfields] at hlisted
      rw [hfields, hlisted] at hpaged
      cases hpaged
      rw [hlisted]
      exact appends_both x _ _
  | listVersions =>
      obtain ⟨s, hpage, hparse⟩ := run_pair_eq_next.mp hrun
      obtain ⟨page, hpaged, rfl⟩ := setPaginationHeaders_eq_next hpage
      cases hparse
      rw [hfields] at hpaged
      cases fields with
      | paginated page' =>
          cases hpaged
          exact appends_addHeaders x _
      | _ => cases haccepts
  | getListableTags =>
      obtain ⟨s, htags, hpage⟩ := run_pair_eq_next.mp hrun
      obtain ⟨page', parentTag, htagged, rfl⟩ := getListableTags_eq_next htags
      obtain ⟨page, hpaged, rfl⟩ := setPaginationHeaders_eq_next hpage
      rw [hfields] at htagged
      rw [Exchange.fields_addHeaders, hfields, htagged] at hpaged
      cases hpaged
      rw [htagged]
      exact appends_both x _ _
  | listAccessTokens =>
      obtain ⟨s, hparse, hpage⟩ := run_pair_eq_next.mp hrun
      cases hparse
      obtain ⟨page, hpaged, rfl⟩ := setPaginationHeaders_eq_next hpage
      rw [hfields] at hpaged
      cases fields with
      | paginated page' =>
          cases hpaged
          exact appends_addHeaders x _
      | _ => cases haccepts
  | readObject =>
      obtain ⟨s, hparse, hread⟩ := run_pair_eq_next.mp hrun
      cases hparse
      obtain ⟨range, hranged, rfl⟩ := setReadObjectHeaders_eq_next hread
      rw [hfields] at hranged
      rw [hranged]
      exact appends_addHeaders x _
  | updateObject =>
      obtain ⟨s, hrange, hwrite⟩ := run_pair_eq_next.mp hrun
      obtain ⟨write', range, hranged, rfl⟩ := updateObject_eq_next hrange
      have hprior' : (x.addHeaders ((rangeHeaders range).map Header.line)).headers =
          (prior ++ rangeHeaders range).map Header.line := by
        rw [Exchange.headers_addHeaders, hheaders, List.map_append]
      have hnames : ∀ h ∈ prior ++ rangeHeaders range,
          h.name = atmosHeaderPool ∨ h.name = httpHeaderRange := by
        intro h hmem
        rcases List.mem_append.mp hmem with hmem | hmem
        · exact Or.inl (hpool h hmem)
        · exact Or.inr (List.mem_singleton.mp ((named_rangeHeaders range).mem hmem))
      obtain ⟨write, hwritten, happends⟩ := setWriteHeaders_appends hprior' hnames hwrite
      rw [hfields] at hranged
      rw [Exchange.fields_addHeaders, hfields, hranged] at hwritten
      cases hwritten
      rw [Exchange.requestBody_addHeaders, hbody] at happends
      rw [hranged, fieldHeaders, List.map_append]
      exact (appends_addHeaders x _).trans happends
  | createObject =>
      obtain ⟨s, hwrite, hparse⟩ := run_pair_eq_next.mp hrun
      cases hparse
      obtain ⟨write, hwritten, happends⟩ :=
        setWriteHeaders_appends hheaders (fun h hmem => Or.inl (hpool h hmem)) hwrite
      rw [hbody] at happends
      rw [hfields] at hwritten
      cases fields with
      | writeObject write' =>
          cases hwritten
          exact happends
      | _ => cases haccepts

/-! ## What the first execution signs -/

/-- **What a signature should cover.**  The string that was signed has the lines
`signedLines` below its head, and these are the `uid` and one line for every
`x-emc` header that is configured. -/
structure SignsConfiguration (env : Env) (configured : List Header) (signed : RestRequest)
    (hashString : CStr) : Prop where
  text : hashString =
    signedHead env.rest signed ++ [newline].intercalate (signedLines signed.headers)
  uid : (signedNames signed.headers).count atmosHeaderUid = 1
  once : ∀ name, (signedNames signed.headers).count name ≤ 1
  covers : ∀ h ∈ configured, IsEmcHeader h.line →
    ∃ line ∈ signedLines signed.headers, canonicalLine h.line = some line
  only : ∀ line ∈ signedLines signed.headers, headerName line = atmosHeaderUid ∨
    ∃ h ∈ configured, canonicalLine h.line = some line
  signature : atmosHeaderSignature ∉ signedNames signed.headers
  date : env.rest.getHeaderValue signed.headers httpHeaderDate =
    some (AtmosUtil.getDate env.now)

theorem mem_signedLines {headers : List CStr} {line : CStr} :
    line ∈ signedLines headers ↔
      (∃ header ∈ headers, canonicalLine header = some line) ∧
        emcPrefix.isPrefixOf line = true := by
  rw [signedLines, (sortTexts_perm _).mem_iff, normalisedEmcLines, List.mem_filter,
    List.mem_filterMap]

section Carried

variable {env : Env} {request : RestRequest} {carried : List Header}
  (hheaders : request.headers = carried.map Header.line)
  (hnames : ∀ h ∈ carried, h.name ∈ atmosHeaderPool :: filterHeaderNames)

include hheaders hnames

/-- The names that are signed for a request with known headers. -/
theorem signedNames_carried :
    (signedNames (requestToSign env request).headers).Perm
      ((carried.filter Header.isEmc).map Header.name ++ [atmosHeaderUid]) := by
  have hknown : ∀ h ∈ carried, IsKnownName h.name := fun h hmem => isKnownName (hnames h hmem)
  have hcanonical : (carried.filter Header.isEmc).map (headerName ∘ Header.canonical) =
      (carried.filter Header.isEmc).map Header.name := by
    apply List.map_congr_left
    intro h hmem
    exact headerName_canonical (hknown h (List.mem_of_mem_filter hmem))
  have hperm := (sortTexts_perm (normalisedEmcLines (requestToSign env request).headers)).map
    headerName
  rw [normalisedEmcLines_requestToSign, hheaders, normalisedEmcLines_map_line hknown,
    List.map_append, List.map_map, hcanonical, List.map_singleton,
    headerName_uidCanonical] at hperm
  rw [signedNames, signedLines, normalisedEmcLines_requestToSign, hheaders,
    normalisedEmcLines_map_line hknown]
  exact hperm

/-- Its date line is the one of the default filters. -/
theorem date_carried :
    env.rest.getHeaderValue (requestToSign env request).headers httpHeaderDate =
      some (AtmosUtil.getDate env.now) := by
  have hdistinct : ∀ name ∈ atmosHeaderPool :: filterHeaderNames, colon ∉ name ∧
      ByteText.lowercase name ≠ ByteText.lowercase httpHeaderDate := by decide
  have hnone : RestClient.getHeader (carried.map Header.line) httpHeaderDate = none :=
    getHeader_map_line fun h hmem => hdistinct h.name (hnames h hmem)
  have hcolon : colon ∉ httpHeaderDate := by decide
  have hname : nameIs httpHeaderDate (dateLine env) = true := by
    rw [nameIs, dateLine, headerName_append hcolon]
    exact decide_eq_true rfl
  have hvalue : env.rest.headerValue (dateLine env) = AtmosUtil.getDate env.now := by
    have hline := env.rest.headerValue_line httpHeaderDate 0 _ hcolon (head_getDate env.now)
    rw [List.replicate_zero, List.nil_append] at hline
    exact hline
  obtain ⟨content, -, hsigned⟩ := requestToSign_headers env request
  rw [RestClient.getHeader] at hnone
  rw [RestClient.getHeaderValue, RestClient.getHeader, hsigned, hheaders, List.append_assoc,
    List.find?_append, hnone, Option.none_or, List.cons_append, List.find?_cons, hname]
  exact congrArg some hvalue

/-- Where the carried names differ, so do the signed ones. -/
theorem signedNames_nodup (hnodup : (carried.map Header.name).Nodup) :
    (signedNames (requestToSign env request).headers).Nodup := by
  have hother : ∀ name ∈ atmosHeaderPool :: filterHeaderNames, name ≠ atmosHeaderUid := by
    decide
  apply (signedNames_carried hheaders hnames).nodup_iff.mpr
  apply List.nodup_append.mpr
  refine ⟨hnodup.sublist (List.filter_sublist.map Header.name), List.nodup_singleton _, ?_⟩
  intro name hname uid huid heq
  obtain ⟨h, hh, rfl⟩ := List.mem_map.mp hname
  rw [List.mem_singleton.mp huid] at heq
  exact hother h.name (hnames h (List.mem_of_mem_filter hh)) heq

/-- No signature is signed. -/
theorem signature_notMem :
    atmosHeaderSignature ∉ signedNames (requestToSign env request).headers := by
  have hother : atmosHeaderSignature ∉ atmosHeaderPool :: filterHeaderNames ∧
      atmosHeaderSignature ≠ atmosHeaderUid := by decide
  intro hmem
  rcases List.mem_append.mp ((signedNames_carried hheaders hnames).mem_iff.mp hmem) with
    hname | hname
  · obtain ⟨h, hh, heq⟩ := List.mem_map.mp hname
    exact hother.1 (heq ▸ hnames h (List.mem_of_mem_filter hh))
  · exact hother.2 (List.mem_singleton.mp hname)

omit hnames in
/-- Every carried `x-emc` header is signed. -/
theorem signed_of_carried {h : Header} (hmem : h ∈ carried) {line : CStr}
    (hline : canonicalLine h.line = some line) (hemc : emcPrefix.isPrefixOf line = true) :
    line ∈ signedLines (requestToSign env request).headers := by
  obtain ⟨content, -, hsigned⟩ := requestToSign_headers env request
  apply mem_signedLines.mpr
  refine ⟨⟨h.line, ?_, hline⟩, hemc⟩
  rw [hsigned, hheaders]
  exact List.mem_append_left _ (List.mem_append_left _ (List.mem_map_of_mem hmem))

/-- A signed line is the `uid` or comes from a carried header. -/
theorem carried_of_signed {line : CStr}
    (hmem : line ∈ signedLines (requestToSign env request).headers) :
    line = uidCanonical env ∨
      ∃ h ∈ carried, headerName line = h.name ∧ canonicalLine h.line = some line := by
  have hknown : ∀ h ∈ carried, IsKnownName h.name := fun h hh => isKnownName (hnames h hh)
  have hmem' := (sortTexts_perm _).mem_iff.mp hmem
  rw [normalisedEmcLines_requestToSign, hheaders, normalisedEmcLines_map_line hknown] at hmem'
  rcases List.mem_append.mp hmem' with hline | hline
  · obtain ⟨h, hh, rfl⟩ := List.mem_map.mp hline
    obtain ⟨hcarried, hemc⟩ := List.mem_filter.mp hh
    exact Or.inr ⟨h, hcarried, headerName_canonical (hknown h hcarried),
      canonicalLine_header ((hknown h hcarried).emc hemc)⟩
  · exact Or.inl (List.mem_singleton.mp hline)

/-- A request that carries the configured headers, each name once, signs them. -/
theorem signsConfiguration_of_carried {configured : List Header} {hashString : CStr}
    (hnodup : (carried.map Header.name).Nodup)
    (hsame : carried.map (fun h => canonicalLine h.line) =
      configured.map (fun h => canonicalLine h.line))
    (hhash : AtmosClient.canonicalizeRequest env.rest (requestToSign env request) =
      some hashString) :
    SignsConfiguration env configured (requestToSign env request) hashString := by
  have honce := @signedNames_nodup env request carried hheaders hnames hnodup
  refine ⟨?_, ?_, List.nodup_iff_count_le_one.mp honce, ?_, ?_,
    signature_notMem hheaders hnames, date_carried hheaders hnames⟩
  · have hcolon := (canonicalizeRequest_isSome env.rest _).mp (Option.isSome_of_eq_some hhash)
    rw [canonicalizeRequest_eq env.rest hcolon] at hhash
    exact (Option.some.inj hhash).symm
  · apply List.count_eq_one_of_mem honce
    apply (signedNames_carried hheaders hnames).mem_iff.mpr
    exact List.mem_append_right _ (List.mem_singleton_self _)
  · intro h hmem hemc
    obtain ⟨other, hother, heq⟩ := List.mem_map.mp (hsame ▸ List.mem_map_of_mem hmem)
    have hcanonical := canonicalLine_of_mem (colon_mem_headerLine h.name h.value)
    refine ⟨_, signed_of_carried hheaders hother (heq.trans hcanonical) ?_, hcanonical⟩
    exact (isEmc_canonicalLine h.line).mpr hemc
  · intro line hmem
    rcases carried_of_signed hheaders hnames hmem with huid | ⟨h, hh, -, hline⟩
    · rw [huid]
      exact Or.inl (headerName_uidCanonical env)
    · have hconfigured : canonicalLine h.line ∈ configured.map fun h => canonicalLine h.line :=
        hsame ▸ List.mem_map_of_mem hh
      obtain ⟨other, hother, heq⟩ := List.mem_map.mp hconfigured
      exact Or.inr ⟨other, hother, heq.trans hline⟩

end Carried

/-! ## Configured headers -/

/-- The headers for the fields have different names. -/
theorem fieldHeaders_named (env : Env) (body : Option RequestBody) (fields : RequestFields) :
    ∃ names, Named names (fieldHeaders env body fields) ∧ names.Nodup ∧
      names ⊆ filterHeaderNames := by
  have hwrite : ∀ write, Named ([httpHeaderContentType] ++ [atmosHeaderMeta,
      atmosHeaderListableMeta, atmosHeaderUtf8, atmosHeaderUserAcl, atmosHeaderGroupAcl] ++
      [atmosHeaderWschecksum, atmosHeaderGenerateChecksum]) (writeHeaders env body write) :=
    fun write => ((named_contentTypeHeaders body).append (named_objectHeaders ..)).append
      (named_checksumHeaders ..)
  cases fields with
  | writeObject write => exact ⟨_, hwrite write, by decide, by decide⟩
  | updateObject write range =>
      exact ⟨_, (named_rangeHeaders range).append (hwrite write), by decide, by decide⟩
  | readObject range =>
      exact ⟨_, (named_rangeHeaders range).append (named_utf8Headers env), by decide, by decide⟩
  | paginated page => exact ⟨_, named_pageHeaders page, by decide, by decide⟩
  | listDirectory page listed =>
      exact ⟨_, (named_pageHeaders page).append
        ((named_utf8Headers env).append (named_listedHeaders env listed)), by decide, by decide⟩
  | listObjects page tag listed =>
      exact ⟨_, (named_pageHeaders page).append ((named_utf8Headers env).append
        ((named_tagsHeaders _ _ [tag]).append (named_listedHeaders env listed))),
        by decide, by decide⟩
  | getListableTags page parentTag =>
      exact ⟨_, ((named_parentTagHeaders parentTag).append (named_utf8Headers env)).append
        (named_pageHeaders page), by decide, by decide⟩
  | restRequest | getUserMeta | getSystemMeta | createAccessToken =>
      exact ⟨[], named_nil [], by decide, by decide⟩

/-- A pool whose name fits the buffer of its header, but for spaces at its
end. -/
def PoolFits (pool : CStr) : Prop := ∀ b ∈ pool.drop 1011, b = space

theorem isEmcName_pool : IsEmcName atmosHeaderPool :=
  (isKnownName (List.mem_cons_self ..)).emc (by decide)

theorem canonicalLine_pool_iff (pool : CStr) :
    canonicalLine (Header.line ⟨atmosHeaderPool, pool.take 1011⟩) =
        canonicalLine (Header.line ⟨atmosHeaderPool, pool⟩) ↔ PoolFits pool := by
  have hline : Header.line ⟨atmosHeaderPool, pool⟩ =
      Header.line ⟨atmosHeaderPool, pool.take 1011⟩ ++ pool.drop 1011 := by
    rw [Header.line, Header.line, headerLine, headerLine, List.append_assoc _ (pool.take 1011),
      List.take_append_drop]
  constructor
  · intro h b hb
    rw [canonicalLine_header isEmcName_pool, canonicalLine_header isEmcName_pool] at h
    have hsqueeze := List.tail_eq_of_cons_eq (List.append_cancel_left (Option.some.inj h))
    have hfilter := congrArg (List.filter (· ≠ space)) hsqueeze
    rw [filter_squeeze, filter_squeeze, List.filter_cons_of_neg (by simp),
      List.filter_cons_of_neg (by simp)] at hfilter
    nth_rewrite 2 [← List.take_append_drop 1011 pool] at hfilter
    rw [List.filter_append, List.self_eq_append_right, List.filter_eq_nil_iff] at hfilter
    simpa using hfilter b hb
  · intro h
    have hspaces := List.eq_replicate_of_mem h
    rw [hline, hspaces]
    have hend := (SpaceEdit.atEnd (Header.line ⟨atmosHeaderPool, pool.take 1011⟩) 0
      (pool.drop 1011).length).canonicalLine_eq
    rw [List.replicate_zero, List.append_nil] at hend
    exact hend

/-! ## Reissued requests -/

theorem poolHeaders_name {pool : Option CStr} {h : Header} (hmem : h ∈ poolHeaders pool) :
    h.name = atmosHeaderPool := by
  obtain ⟨pool, -, rfl⟩ := List.mem_map.mp hmem
  rfl

/-- What an object carries when it is executed for the first time. -/
def Issue.carried {kind : RequestKind} (issue : Issue kind) (pool : Option CStr) : List Header :=
  poolHeaders (pool.map (·.take 1011)) ++ fieldHeaders issue.env issue.body issue.fields

theorem carried_names {kind : RequestKind} (issue : Issue kind) (pool : Option CStr) :
    (∀ h ∈ issue.carried pool, h.name ∈ atmosHeaderPool :: filterHeaderNames) ∧
      ((issue.carried pool).map Header.name).Nodup := by
  obtain ⟨names, hnamed, hnodup, hsubset⟩ :=
    fieldHeaders_named issue.env issue.body issue.fields
  have hpool : Named [atmosHeaderPool] (poolHeaders (pool.map (·.take 1011))) := by
    cases pool with
    | none => exact named_nil _
    | some pool => exact named_singleton _ _
  have hcarried : Named ([atmosHeaderPool] ++ names) (issue.carried pool) :=
    hpool.append hnamed
  have hnotpool : atmosHeaderPool ∉ filterHeaderNames := by decide
  constructor
  · intro h hmem
    rcases List.mem_cons.mp (hcarried.mem hmem) with heq | hname
    · exact heq ▸ List.mem_cons_self ..
    · exact List.mem_cons_of_mem _ (hsubset hname)
  · apply List.Nodup.sublist hcarried
    exact List.nodup_cons.mpr ⟨fun hmem => hnotpool (hsubset hmem), hnodup⟩

/-- An object that is executed for the first time signs a request with those
headers. -/
theorem newRequest_signed {kind : RequestKind} {pool : Option CStr} {new : AtmosRequest}
    (hnew : IsNew kind pool new) {issue : Issue kind} {x : Exchange}
    (h : issue.execute new = some (.next x)) {signed : RestRequest} {hashString : CStr}
    (hsigned : Event.signed signed hashString ∈ x.trace) :
    ∃ request : RestRequest, signed = requestToSign issue.env request ∧
      request.headers = (issue.carried pool).map Header.line ∧
      AtmosClient.canonicalizeRequest issue.env.rest signed = some hashString := by
  obtain ⟨y, text, hown, hhash, rfl⟩ := issue_eq_next h
  have happends := run_fieldHeaders (newRequest_headers hnew)
    (fun h hmem => poolHeaders_name hmem) hown
  have htrace : y.trace = [] := happends.trace
  obtain ⟨rfl, rfl⟩ := eq_of_signed_mem htrace hsigned
  have hstart : (issue.start new).headers = new.parent.headers := rfl
  have hheaders : y.request.parent.headers = _ := happends.headers
  refine ⟨y.request.parent, rfl, ?_, hhash⟩
  rw [hheaders, hstart, newRequest_headers hnew, ← List.map_append]
  rfl

/-- Where the line of a pool is signed, the pool fits. -/
theorem poolFits_of_signed {kind : RequestKind} {issue : Issue kind} {pool : CStr}
    {request : RestRequest}
    (hheaders : request.headers = (issue.carried (some pool)).map Header.line) {line : CStr}
    (hmem : line ∈ signedLines (requestToSign issue.env request).headers)
    (hline : canonicalLine (Header.line ⟨atmosHeaderPool, pool⟩) = some line) :
    PoolFits pool := by
  obtain ⟨hnames, -⟩ := carried_names issue (some pool)
  have hpool : headerName line = atmosHeaderPool := by
    rw [canonicalLine_header isEmcName_pool] at hline
    rw [← Option.some.inj hline]
    exact headerName_append isEmcName_pool.colon_notMem _
  rcases carried_of_signed hheaders hnames hmem with huid | ⟨h, hh, hname, hcanonical⟩
  · rw [huid, headerName_uidCanonical] at hpool
    exact absurd hpool (by decide)
  · rw [hpool] at hname
    rcases List.mem_append.mp hh with hpooled | hfield
    · cases List.mem_singleton.mp hpooled
      exact (canonicalLine_pool_iff pool).mp (hcanonical.trans hline.symm)
    · obtain ⟨names, hnamed, -, hsubset⟩ :=
        fieldHeaders_named issue.env issue.body issue.fields
      have hnotpool : atmosHeaderPool ∉ filterHeaderNames := by decide
      exact absurd (hsubset (hname ▸ hnamed.mem hfield)) hnotpool

/-- **Reissuing.**  An execution signs the configured headers exactly when it is
the first one of its object and the pool of the object fits. -/
theorem reissued_signs_configuration_iff {kind : RequestKind} {pool : Option CStr}
    {new request : AtmosRequest} {n : Nat} (hnew : IsNew kind pool new)
    (hrun : Executed kind new n request) (issue : Issue kind) {x : Exchange}
    (h : issue.execute request = some (.next x)) {signed : RestRequest} {hashString : CStr}
    (hsigned : Event.signed signed hashString ∈ x.trace) :
    SignsConfiguration issue.env (issue.configured pool) signed hashString ↔
      n = 0 ∧ ∀ p ∈ pool, PoolFits p := by
  constructor
  · intro hsigns
    have hzero : n = 0 := by
      obtain ⟨y, text, hown, -, rfl⟩ := issue_eq_next h
      have happends := issue_ownFilters hown
      have htrace : y.trace = [] := by
        obtain ⟨headers, -, hframe⟩ := happends
        exact hframe.trace
      obtain ⟨rfl, -⟩ := eq_of_signed_mem htrace hsigned
      have hcount := @count_uid_of_appends issue.env _ _ happends
      have hearlier := executed_uids hrun
      have hstart : (issue.start request).headers = request.parent.headers := rfl
      rw [hstart, hsigns.uid] at hcount
      omega
    subst hzero
    cases hrun
    refine ⟨rfl, ?_⟩
    intro p hp
    cases hp
    obtain ⟨parent, rfl, hheaders, -⟩ := newRequest_signed hnew h hsigned
    have hemc : IsEmcHeader (Header.line ⟨atmosHeaderPool, p⟩) := by
      rw [Header.line, headerLine_eq, isEmcHeader_line]
      exact isEmcName_pool.emc
    obtain ⟨line, hmem, hline⟩ := hsigns.covers _ (List.mem_cons_self ..) hemc
    exact poolFits_of_signed hheaders hmem hline
  · intro hfirst
    obtain ⟨hzero, hfits⟩ := hfirst
    subst hzero
    cases hrun
    obtain ⟨parent, rfl, hheaders, hhash⟩ := newRequest_signed hnew h hsigned
    obtain ⟨hnames, hnodup⟩ := carried_names issue pool
    apply signsConfiguration_of_carried hheaders hnames hnodup ?_ hhash
    rw [Issue.carried, Issue.configured, List.map_append, List.map_append]
    congr 1
    cases pool with
    | none => rfl
    | some p =>
        have hsame := (canonicalLine_pool_iff p).mpr (hfits p rfl)
        simpa [poolHeaders] using hsame

/-- The string that is signed for the first page of a listing. -/
def firstPageText : CStr :=
  bytes ("GET\n\n\nFri, 06 Mar 2026 09:15:30 GMT\n/rest/namespace/docs/\n" ++
    "x-emc-limit:5\nx-emc-uid:0123abcd/reader\nx-emc-utf8:true")

/-- The string that is signed for the second page. -/
def secondPageText : CStr :=
  bytes ("GET\n\n\nFri, 06 Mar 2026 09:15:30 GMT\n/rest/namespace/docs/\n" ++
    "x-emc-limit:5\nx-emc-limit:5\nx-emc-signature:7PL5oxF5rdyeLEcsQj32oO8A0EY=\n" ++
    "x-emc-token:p2\nx-emc-uid:0123abcd/reader\nx-emc-uid:0123abcd/reader\n" ++
    "x-emc-utf8:true\nx-emc-utf8:true")

/-- Their signatures. -/
def pageRecordings : List Recording :=
  [readerRecording firstPageText
      [236, 242, 249, 163, 17, 121, 173, 220, 158, 44, 71, 44, 66, 61, 246, 160, 239, 0, 208, 70]
      (bytes "7PL5oxF5rdyeLEcsQj32oO8A0EY="),
    readerRecording secondPageText
      [106, 108, 183, 148, 210, 84, 87, 221, 215, 219, 200, 32, 100, 121, 113, 182, 88, 97, 76,
      168]
      (bytes "amy3lNJUV93X28ggZHlxtlhhTKg=")]

/-- The listing at some time, from a token on. -/
def docsIssue (now : Tm) (token : CStr) (htoken : token.length < atmosTokenMax) :
    Issue .listDirectory where
  env := { readerEnv with openssl := .replay pageRecordings, now }
  fields := .listDirectory { limit := 5, token, token_length := htoken } .zero
  accepts := rfl
  body := none
  response := .init .subclass

/-- The first page. -/
def firstPage : Issue .listDirectory :=
  docsIssue readerTime AtmosPaginatedRequest.zero.token AtmosPaginatedRequest.zero.token_length

/-- The second page, from the token of the first one on. -/
def secondPage : Issue .listDirectory := docsIssue laterTime docsToken length_docsToken

/-- The exchange of a listing before the default filters. -/
def listingStart (issue : Issue .listDirectory) (request : AtmosRequest) : Exchange :=
  (issue.start request).addHeaders
    ((fieldHeaders issue.env issue.body issue.fields).map Header.line)

/-- A listing passes its own filters. -/
theorem listing_execute {issue : Issue .listDirectory} {request : AtmosRequest}
    {hashString : CStr} (htext : AtmosClient.canonicalizeRequest issue.env.rest
      (requestToSign issue.env (listingStart issue request).request.parent) = some hashString) :
    issue.execute request =
      some (.next ((listingStart issue request).signedAndSent issue.env hashString)) := by
  have haccepts := issue.accepts
  have hstart : (issue.start request).request.fields = issue.fields := rfl
  apply execute_call_eq_next.mpr
  refine ⟨listingStart issue request, hashString, ?_, htext, rfl⟩
  rw [listingStart]
  generalize issue.fields = fields at *
  cases fields with
  | listDirectory page listed =>
      have hpage : (issue.start request).request.fields.asPaginated = some page := by
        rw [hstart]
        rfl
      apply run_cons_eq_next.mpr
      refine ⟨_, setPaginationHeaders_eq hpage, ?_⟩
      apply run_pair_eq_next.mpr
      refine ⟨_, listDirectory_eq hstart, ?_⟩
      rw [Exchange.addHeaders_addHeaders, ← List.map_append]
      rfl
  | _ => cases haccepts

/-- The exchange after the first page. -/
def firstPageSent : Exchange :=
  (listingStart firstPage docsRequest).signedAndSent firstPage.env firstPageText

theorem firstPage_execute : firstPage.execute docsRequest = some (.next firstPageSent) :=
  listing_execute (by decide +kernel)

theorem reissued_signs_configuration_iff_docs :
    ∃ signed hashString, Event.signed signed hashString ∈ firstPageSent.trace ∧
      SignsConfiguration firstPage.env (firstPage.configured none) signed hashString := by
  have hnew : IsNew .listDirectory none docsRequest := .listDirectory (Option.some_get ..).symm
  have hsigned := signed_mem firstPage.env (listingStart firstPage docsRequest) firstPageText
  refine ⟨_, _, hsigned, ?_⟩
  apply (reissued_signs_configuration_iff hnew .zero firstPage firstPage_execute hsigned).mpr
  refine ⟨rfl, ?_⟩
  intro p hp
  cases hp

/-- The second page is signed with two lines for the `uid`, with the signature
of the first page and with its date. -/
theorem secondPage_signs_again :
    ∃ x signed, secondPage.execute firstPageSent.request = some (.next x) ∧
      Event.signed signed secondPageText ∈ x.trace ∧
      ¬ SignsConfiguration secondPage.env (secondPage.configured none) signed
        secondPageText := by
  let y := listingStart secondPage firstPageSent.request
  have hexecute : secondPage.execute firstPageSent.request =
      some (.next (y.signedAndSent secondPage.env secondPageText)) :=
    listing_execute (by decide +kernel)
  refine ⟨y.signedAndSent secondPage.env secondPageText,
    requestToSign secondPage.env y.request.parent, hexecute, signed_mem _ y _, ?_⟩
  intro hsigns
  have htwice : (signedNames (requestToSign secondPage.env y.request.parent).headers).count
      atmosHeaderUid = 2 := by
    decide +kernel
  rw [hsigns.uid] at htwice
  cases htwice

end Atmos
