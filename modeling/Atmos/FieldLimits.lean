import Atmos.ObjectAddressing

/-!
# Values that fill their field

A field of a request or of the client holds strings up to its size.  The header
line or the URI made from it is written into a buffer with a size of its own,
and `snprintf` cuts what does not fit.

* `header_line_whole_iff` — the line of a field carries the whole value exactly
  when the value fits `HeaderField.room`;
* `longest_path_uri_iff` — a path that fits its field is addressed whole, except
  that creating and sharing leave room for 1008 bytes only.
-/

namespace Atmos

open ByteText FixedMemory FilterChain QueryString

/-! ## Header lines -/

/-- The fields that are written into a header line with `snprintf`: the `uid` of
the client, the path of an access token, the destination of a renaming and the
pool. -/
inductive HeaderField where
  | uid
  | tokenPath
  | destination
  | pool
  deriving DecidableEq, Repr

namespace HeaderField

def name : HeaderField → CStr
  | uid => atmosHeaderUid
  | tokenPath | destination => atmosHeaderPath
  | pool => atmosHeaderPool

/-- The separator in the format. -/
def separator : HeaderField → CStr
  | uid => [colon]
  | _ => bytes ": "

/-- The line that carries a whole value. -/
def line (field : HeaderField) (value : CStr) : CStr := field.name ++ field.separator ++ value

/-- The size of the field. -/
def fieldSize : HeaderField → Nat
  | uid => atmosUidMax
  | _ => atmosPathMax

/-- The size of the buffer for the line. -/
def bufferSize : HeaderField → Nat
  | uid | tokenPath => atmosSimpleHeaderMax
  | destination => atmosPathMax + 32
  | pool => atmosPathMax

/-- The length of the longest value that is not cut. -/
def room : HeaderField → Nat
  | uid => 244
  | tokenPath => 242
  | destination => 1043
  | pool => 1011

theorem room_eq (field : HeaderField) :
    field.room + (field.name ++ field.separator).length + 1 = field.bufferSize := by
  cases field <;> rfl

/-- The line in the buffer. -/
def written (field : HeaderField) (value : CStr) : CStr :=
  snprintf field.bufferSize (field.line value)

/-- The buffer cuts the value only. -/
theorem written_eq (field : HeaderField) (value : CStr) :
    field.written value = field.line (value.take field.room) := by
  have hroom := field.room_eq
  unfold written line snprintf
  rw [List.take_append, List.take_of_length_le (by omega)]
  congr
  omega

theorem written_eq_line_iff (field : HeaderField) (value : CStr) :
    field.written value = field.line value ↔ value.length ≤ field.room := by
  rw [written_eq, line, line, List.append_cancel_left_eq, List.take_eq_self_iff]

/-- Only for a destination is the buffer long enough for every value its field
can hold. -/
theorem written_eq_line_of_field_iff (field : HeaderField) :
    (∀ value : CStr, value.length < field.fieldSize → field.written value = field.line value) ↔
      field = .destination := by
  constructor
  · intro h
    by_contra hother
    have hroom : field.room + 1 < field.fieldSize := by
      cases field with
      | destination => exact absurd rfl hother
      | uid | tokenPath | pool => decide
    have hcut := (field.written_eq_line_iff _).mp
      (h (List.replicate (field.room + 1) 97) (by rw [List.length_replicate]; exact hroom))
    rw [List.length_replicate] at hcut
    omega
  · rintro rfl value hvalue
    have hsize : fieldSize .destination = 1024 := rfl
    have hroom : room .destination = 1043 := rfl
    rw [written_eq_line_iff]
    omega

theorem linesNamed_written (field : HeaderField) (value : CStr) :
    linesNamed field.name [field.written value] = [field.written value] := by
  obtain ⟨rest, hline⟩ : ∃ rest, field.written value = field.name ++ colon :: rest := by
    rw [written_eq, line, List.append_assoc]
    cases field <;> exact ⟨_, rfl⟩
  have hcolon : colon ∉ field.name := by cases field <;> decide
  rw [hline]
  exact linesNamed_line hcolon rest

/-- An operation writes a value into the line of a field, behind the lines of
that name which are there before. -/
inductive WrittenBy (env : Env) : HeaderField → Operation → CStr → List CStr → Prop
  | uid {op : Operation} {call : Call} (hcall : op.call env = some call) :
      WrittenBy env .uid op env.atmos.uid call.request.parent.headers
  | tokenPath {request : AtmosRequest} {token : AtmosCreateAccessTokenRequest}
      (hfields : request.fields = .createAccessToken token) (hobject : token.objectId = [])
      (hpath : token.path ≠ []) :
      WrittenBy env .tokenPath (.createAccessToken request) token.path request.parent.headers
  | destination (source destination : CStr) (force : Bool) :
      WrittenBy env .destination (.renameObject source destination force) destination []
  | pool {pool key suffix : CStr} {op : Operation} (hop : AddressesKey pool key op suffix) :
      WrittenBy env .pool op pool []

end HeaderField

/-- The filter of an access token names its path once. -/
theorem linesNamed_tokenHeaders {env : Env} {token : AtmosCreateAccessTokenRequest}
    (hobject : token.objectId = []) (hpath : token.path ≠ []) :
    linesNamed atmosHeaderPath ((tokenObjectHeaders token ++
      objectHeaders env token.metadata token.listableMeta token.acl ++
      headerIf (token.policy = none) httpHeaderContentType (bytes "text/xml")).map
        Header.line) = [HeaderField.written .tokenPath token.path] := by
  have hnamed := (named_objectHeaders env token.metadata token.listableMeta token.acl).append
    (named_headerIf (token.policy = none) httpHeaderContentType (bytes "text/xml"))
  have hothers : linesNamed atmosHeaderPath ((objectHeaders env token.metadata
      token.listableMeta token.acl ++ headerIf (token.policy = none) httpHeaderContentType
        (bytes "text/xml")).map Header.line) = [] :=
    hnamed.linesNamed_eq_nil (by decide)
  have hwritten : (tokenObjectHeaders token).map Header.line =
      [HeaderField.written .tokenPath token.path] := by
    have hnone : ¬ 0 < token.objectId.length := by simp [hobject]
    rw [tokenObjectHeaders, if_neg hnone, headerIf, if_pos (List.length_pos_of_ne_nil hpath),
      HeaderField.written_eq]
    rfl
  rw [List.append_assoc, List.map_append, linesNamed_append, hwritten, hothers,
    List.append_nil]
  exact HeaderField.linesNamed_written .tokenPath token.path

/-- The headers of a renaming behind the destination. -/
def renamingHeaders (force : Bool) : List Header :=
  headerIf (force = true) atmosHeaderForce (bytes "true") ++
    [⟨httpHeaderContentType, bytes "application/octet-stream"⟩]

theorem named_renamingHeaders (force : Bool) :
    Named [atmosHeaderForce, httpHeaderContentType] (renamingHeaders force) :=
  (named_headerIf _ _ _).append (named_singleton _ _)

section Sent

variable {env : Env} {op : Operation} {call : Call} {response : AtmosResponse} {x : Exchange}
  {sent : RestRequest}

/-- The `uid` is written by a default filter. -/
theorem linesNamed_sentUid (hcall : op.call env = some call)
    (hexecute : call.execute env response = some (.next x)) (hsent : Event.sent sent ∈ x.trace) :
    linesNamed atmosHeaderUid sent.headers =
      linesNamed atmosHeaderUid call.request.parent.headers ++
        [HeaderField.written .uid env.atmos.uid] := by
  obtain ⟨request, filters, rfl, hfilters⟩ := operation_ownFilters hcall
  obtain ⟨y, -, ⟨headers, hnames, happends⟩, hlines⟩ :=
    @linesNamed_sent env request filters response x sent atmosHeaderUid (by decide)
      (by decide) hfilters hexecute hsent
  have hdistinct : ∀ name ∈ filterHeaderNames, colon ∉ name ∧
      ByteText.lowercase name ≠ ByteText.lowercase atmosHeaderUid := by decide
  have hown := linesNamed_map_line fun h hmem => hdistinct h.name (hnames h hmem)
  have huid : uidLine env = HeaderField.written .uid env.atmos.uid := by
    rw [HeaderField.written_eq]
    rfl
  have hline := HeaderField.linesNamed_written .uid env.atmos.uid
  rw [HeaderField.name] at hline
  rw [hlines, happends.headers, linesNamed_append, hown, List.append_nil, huid, hline]
  rfl

/-- The `uid` has a name of its own. -/
theorem linesNamed_path_uidLine (env : Env) : linesNamed atmosHeaderPath [uidLine env] = [] :=
  linesNamed_other (by decide) (by decide) _

/-- The path of an access token is written by the filter of the operation. -/
theorem linesNamed_sentTokenPath {request : AtmosRequest} {token : AtmosCreateAccessTokenRequest}
    (hfields : request.fields = .createAccessToken token) (hobject : token.objectId = [])
    (hpath : token.path ≠ [])
    (hexecute : (AtmosClient.createAccessToken request).execute env response = some (.next x))
    (hsent : Event.sent sent ∈ x.trace) :
    linesNamed atmosHeaderPath sent.headers =
      linesNamed atmosHeaderPath request.parent.headers ++
        [HeaderField.written .tokenPath token.path] := by
  obtain ⟨y, hrun, -, hlines⟩ :=
    @linesNamed_sent env request [.createAccessToken] response x sent atmosHeaderPath
      (by decide) (by decide) (by decide) hexecute hsent
  obtain ⟨z, hfilter, hnil⟩ := run_cons_eq_next.mp hrun
  cases hnil
  obtain ⟨token', hfields', happends⟩ := createAccessToken_eq_next hfilter
  cases hfields.symm.trans hfields'
  rw [hlines, happends.headers, linesNamed_append, linesNamed_tokenHeaders hobject hpath,
    linesNamed_path_uidLine, List.append_nil]

/-- The destination of a renaming is written by the operation itself. -/
theorem linesNamed_sentDestination {source destination : CStr} {force : Bool}
    (hcall : (Operation.renameObject source destination force).call env = some call)
    (hexecute : call.execute env response = some (.next x)) (hsent : Event.sent sent ∈ x.trace) :
    linesNamed atmosHeaderPath sent.headers = [HeaderField.written .destination destination] := by
  have hheaders : call.request.parent.headers =
      [HeaderField.written .destination destination] ++
        (renamingHeaders force).map Header.line := by
    cases hcall
    cases force <;> rfl
  have hothers : linesNamed atmosHeaderPath ((renamingHeaders force).map Header.line) = [] :=
    (named_renamingHeaders force).linesNamed_eq_nil (by decide)
  cases hcall
  obtain ⟨y, hrun, -, hlines⟩ :=
    @linesNamed_sent env _ [] response x sent atmosHeaderPath (by decide) (by decide)
      (by decide) hexecute hsent
  cases hrun
  have hline := HeaderField.linesNamed_written .destination destination
  rw [HeaderField.name] at hline
  rw [hlines, linesNamed_path_uidLine, List.append_nil]
  refine (congrArg (linesNamed atmosHeaderPath) hheaders).trans ?_
  rw [linesNamed_append, hline, hothers]
  rfl

/-- **What is sent** has the line in the buffer, behind the ones there before. -/
theorem linesNamed_field {field : HeaderField} {value : CStr} {given : List CStr}
    (hwritten : field.WrittenBy env op value given) (hcall : op.call env = some call)
    (hexecute : call.execute env response = some (.next x)) (hsent : Event.sent sent ∈ x.trace) :
    linesNamed field.name sent.headers =
      linesNamed field.name given ++ [field.written value] := by
  cases hwritten with
  | uid hcall' =>
      cases hcall.symm.trans hcall'
      exact linesNamed_sentUid hcall hexecute hsent
  | tokenPath hfields hobject hpath =>
      cases hcall
      exact linesNamed_sentTokenPath hfields hobject hpath hexecute hsent
  | destination source _ force => exact linesNamed_sentDestination hcall hexecute hsent
  | @pool pool key suffix op hop =>
      have hline : poolHeader value = HeaderField.written .pool value := by
        rw [poolHeader_eq, HeaderField.written_eq]
        rfl
      have hlines := poolLines_sent (operation_ownFilters hcall) hexecute hsent
      rw [addressesKey_pool hop hcall, hline] at hlines
      exact hlines

end Sent

/-- **Whole values.**  The line of a field in a request that is sent carries the
whole value exactly when the value fits the room in the line's buffer. -/
theorem header_line_whole_iff {env : Env} {field : HeaderField} {op : Operation} {value : CStr}
    {given : List CStr} {call : Call} {response : AtmosResponse} {x : Exchange}
    {sent : RestRequest} (hwritten : field.WrittenBy env op value given)
    (hcall : op.call env = some call) (hexecute : call.execute env response = some (.next x))
    (hsent : Event.sent sent ∈ x.trace) :
    linesNamed field.name sent.headers = linesNamed field.name given ++ [field.line value] ↔
      value.length ≤ field.room := by
  rw [linesNamed_field hwritten hcall hexecute hsent, List.append_cancel_left_eq,
    List.cons.injEq, and_iff_left rfl, field.written_eq_line_iff]

/-- A request for an access token for a path. -/
def tokenRequest (path : CStr) : AtmosRequest := AtmosCreateAccessTokenRequest.init [] path

/-- The reader's client can send it. -/
theorem tokenRequest_sent (openssl : Openssl) (path : CStr) :
    ∃ x sent, (AtmosClient.createAccessToken (tokenRequest (47 :: path))).execute
        { readerEnv with openssl } (.init .subclass) = some (.next x) ∧
      Event.sent sent ∈ x.trace := by
  let start : Exchange :=
    { request := tokenRequest (47 :: path), response := .init .subclass, trace := [] }
  let lines : List CStr := [HeaderField.written .tokenPath (47 :: path),
    headerLine atmosHeaderUtf8 (bytes "true"), headerLine httpHeaderContentType (bytes "text/xml")]
  have hrun : run ([RestFilter.createAccessToken].reverse.map
      (RestFilter.before { readerEnv with openssl })) start =
        some (.next (start.addHeaders lines)) := rfl
  have hcolon : ∀ line ∈ (start.addHeaders lines).headers, colon ∈ line := by
    intro line hmem
    rcases List.mem_cons.mp hmem with rfl | hmem
    · rw [HeaderField.written_eq]
      exact colon_mem_headerLine _ _
    · rcases List.mem_pair.mp hmem with rfl | rfl
      · exact colon_mem_headerLine _ _
      · exact colon_mem_headerLine _ _
  exact execute_call_sends (by decide) hrun hcolon

/-- A path of 300 bytes. -/
def longPath : CStr := 47 :: List.replicate 299 97

/-- What the reader signs to get an access token for a short and for a long
path. -/
def tokenOpenssl : Openssl := .replay
  [readerRecording
      (bytes ("POST\ntext/xml\n\nFri, 06 Mar 2026 09:15:30 GMT\n/rest/accesstokens\n" ++
        "x-emc-path:/docs/a.txt\nx-emc-uid:0123abcd/reader\nx-emc-utf8:true"))
      [188, 154, 206, 161, 92, 116, 39, 101, 73, 249, 44, 232, 249, 4, 46, 153, 74, 34, 208,
      136]
      (bytes "vJrOoVx0J2VJ+Szo+QQumUoi0Ig="),
    readerRecording
      (bytes ("POST\ntext/xml\n\nFri, 06 Mar 2026 09:15:30 GMT\n/rest/accesstokens\n" ++
        "x-emc-path:") ++ longPath.take 242 ++
        bytes "\nx-emc-uid:0123abcd/reader\nx-emc-utf8:true")
      [125, 121, 137, 252, 95, 194, 137, 39, 202, 29, 173, 2, 243, 4, 68, 26, 103, 9, 97, 183]
      (bytes "fXmJ/F/CiSfKHa0C8wREGmcJYbc=")]

theorem header_line_whole_iff_docs :
    ∃ x sent, (AtmosClient.createAccessToken (tokenRequest (bytes "/docs/a.txt"))).execute
        { readerEnv with openssl := tokenOpenssl } (.init .subclass) = some (.next x) ∧
      Event.sent sent ∈ x.trace ∧
      linesNamed atmosHeaderPath sent.headers = [bytes "x-emc-path: /docs/a.txt"] := by
  obtain ⟨x, sent, hexecute, hsent⟩ := tokenRequest_sent tokenOpenssl (bytes "docs/a.txt")
  have hwhole := @header_line_whole_iff { readerEnv with openssl := tokenOpenssl } .tokenPath
    (.createAccessToken (tokenRequest (bytes "/docs/a.txt"))) _ _ _ _ x sent
    (.tokenPath rfl rfl (by decide)) rfl hexecute hsent
  exact ⟨x, sent, hexecute, hsent, hwhole.mpr (by decide)⟩

/-- An access token for a path of 300 bytes is asked for with a prefix of the
path. -/
theorem accessToken_for_a_prefix :
    longPath.length < atmosPathMax ∧
    ∃ x sent, (AtmosClient.createAccessToken (tokenRequest longPath)).execute
        { readerEnv with openssl := tokenOpenssl } (.init .subclass) = some (.next x) ∧
      Event.sent sent ∈ x.trace ∧
      linesNamed atmosHeaderPath sent.headers =
        [headerLine atmosHeaderPath (longPath.take 242)] ∧
      longPath.take 242 ≠ longPath := by
  refine ⟨by decide +kernel, ?_⟩
  obtain ⟨x, sent, hexecute, hsent⟩ := tokenRequest_sent tokenOpenssl (List.replicate 299 97)
  have hpath : longPath ≠ [] := by decide
  have hlines := @linesNamed_sentTokenPath _ _ x sent (tokenRequest longPath) _ rfl rfl hpath
    hexecute hsent
  rw [HeaderField.written_eq] at hlines
  exact ⟨x, sent, hexecute, hsent, hlines, by decide +kernel⟩

/-! ## Longest paths -/

/-- The operations that create an object. -/
def Operation.isCreate : Operation → Bool
  | .createObject _ | .createObjectSimpleNs .. | .createObjectFileNs .. => true
  | _ => false

/-- `snprintf` writes a whole URI exactly when the bound exceeds its length. -/
theorem namespaceUri_eq_iff {size : Nat} (hsize : 0 < size) (path : CStr) :
    namespaceUri size path [] = bytes "/rest/namespace" ++ path ↔ 15 + path.length < size := by
  have hprefix : (bytes "/rest/namespace").length = 15 := rfl
  rw [namespaceUri, snprintf, List.append_nil, List.take_eq_self_iff, List.length_append, hprefix]
  omega

theorem addressesPath_whole_iff {path : CStr} {op : Operation}
    (hlength : path.length < atmosPathMax) (hop : AddressesPath path op []) :
    15 + path.length < op.uriBound ↔ (op.isCreate = true → path.length ≤ 1008) := by
  have hsize : atmosPathMax = 1024 := rfl
  cases hop with
  | createObject | createObjectSimple | createObjectFile =>
      simp only [Operation.uriBound, Operation.isCreate, true_imp_iff]
      omega
  | _ =>
      refine iff_of_true ?_ fun hcreate => by cases hcreate
      simp only [Operation.uriBound]
      omega

/-- A URL has the whole path exactly when its URI does: the query does not
make up for what is cut. -/
theorem shareableUrl_whole_iff {env : Env} (hcurl : env.curl.Documented) (path : CStr)
    (expires : Int64) (disposition : Option CStr) :
    AtmosClient.getShareableUrlNs env path expires disposition =
        some (env.atmos.origin ++ (bytes "/rest/namespace" ++ path) ++
          AtmosClient.shareableQuery env (bytes "/rest/namespace" ++ path) expires disposition) ↔
      15 + path.length < atmosPathMax := by
  have hpos : 0 < atmosPathMax := by decide
  have hsize : atmosPathMax = 1024 := rfl
  have hbuffer : (namespaceUri atmosPathMax path []).length < 2147483648 := by
    rw [namespaceUri, snprintf, List.length_take]
    omega
  rw [AtmosClient.getShareableUrlNs, getShareableUrlInternal_eq env hbuffer, Option.some_inj,
    ← namespaceUri_eq_iff hpos path]
  constructor
  · intro h
    rw [shareableQuery_eq hcurl, shareableQuery_eq hcurl, List.append_assoc, List.append_assoc,
      List.append_cancel_left_eq] at h
    obtain ⟨rest, hrest⟩ : namespaceUri atmosPathMax path [] <+:
        bytes "/rest/namespace" ++ path := by
      rw [namespaceUri, List.append_nil]
      exact List.take_prefix _ _
    rw [← hrest, List.append_assoc, List.append_cancel_left_eq] at h
    cases rest with
    | nil => rw [← hrest, List.append_nil]
    | cons b rest =>
        -- the `?` behind the whole path would be a second one behind the cut path
        have hquestion := (notMem_shareableQuery env (namespaceUri atmosPathMax path []) expires
          disposition).1
        rw [(List.cons.inj h).2] at hquestion
        exact absurd (List.mem_append_right _ (List.mem_cons_self ..)) hquestion
  · intro h
    rw [h]

/-- **Longest paths.**  A path that fits its field is addressed whole by every
operation that creates, reads, updates, deletes or lists it and by a shareable
URL, but for creating and sharing where it is longer than 1008 bytes. -/
theorem longest_path_uri_iff {env : Env} (hcurl : env.curl.Documented) {path : CStr}
    (hlength : path.length < atmosPathMax) :
    (∀ op call response x sent, AddressesPath path op [] → op.call env = some call →
      call.execute env response = some (.next x) → Event.sent sent ∈ x.trace →
        (sent.uri = bytes "/rest/namespace" ++ path ↔
          (op.isCreate = true → path.length ≤ 1008))) ∧
    ∀ expires disposition,
      (AtmosClient.getShareableUrlNs env path expires disposition =
          some (env.atmos.origin ++ (bytes "/rest/namespace" ++ path) ++
            AtmosClient.shareableQuery env (bytes "/rest/namespace" ++ path) expires
              disposition) ↔
        path.length ≤ 1008) := by
  constructor
  · intro op call response x sent hop hcall hexecute hsent
    have hother : ∀ metaNames, op ≠ .deleteUserMetaNs path metaNames := by
      intro metaNames h
      subst h
      generalize hsuffix : ([] : CStr) = suffix at hop
      cases hop
      exact absurd (congrArg List.length hsuffix) (by decide)
    have hpos : 0 < op.uriBound := by cases hop <;> exact Nat.le_of_ble_eq_true rfl
    have hframe := execute_sent (operation_ownFilters hcall) hexecute hsent
    rw [hframe.uri, addressesPath_format hop hother hcall, namespaceUri_eq_iff hpos,
      addressesPath_whole_iff hlength hop]
  · intro expires disposition
    have hsize : atmosPathMax = 1024 := rfl
    rw [shareableUrl_whole_iff hcurl]
    omega

/-- A path of 1009 bytes. -/
def boundaryPath : CStr := 47 :: List.replicate 1008 97

/-- What the reader signs to create an object at this path and to delete it. -/
def boundaryEnv : Env :=
  { readerEnv with openssl := .replay [readerRecording
      (bytes "POST\napplication/octet-stream\n\nFri, 06 Mar 2026 09:15:30 GMT\n/rest/namespace" ++
        boundaryPath.take 1008 ++ bytes "\nx-emc-uid:0123abcd/reader\nx-emc-utf8:true")
      [75, 12, 55, 36, 18, 11, 180, 232, 191, 142, 73, 180, 120, 25, 89, 51, 43, 101, 231, 209]
      (bytes "Sww3JBILtOi/jkm0eBlZMytl59E="),
    readerRecording
      (bytes "DELETE\n\n\nFri, 06 Mar 2026 09:15:30 GMT\n/rest/namespace" ++ boundaryPath ++
        bytes "\nx-emc-uid:0123abcd/reader")
      [134, 176, 49, 101, 215, 30, 199, 72, 210, 103, 89, 213, 12, 46, 241, 242, 91, 149, 117, 53]
      (bytes "hrAxZdcex0jSZ1nVDC7x8luVdTU=")] }

theorem longest_path_uri_iff_boundary :
    ∃ response x sent,
      (AtmosClient.deleteObjectNs boundaryPath).execute boundaryEnv response = some (.next x) ∧
      Event.sent sent ∈ x.trace ∧ sent.uri = bytes "/rest/namespace" ++ boundaryPath := by
  obtain ⟨response, x, sent, hexecute, hsent, -⟩ :=
    @exists_sent boundaryEnv (.deleteObjectNs boundaryPath) _ [] rfl (fun _ => rfl)
      (fun _ hmem => by cases hmem)
  have hwhole := (@longest_path_uri_iff boundaryEnv Curl.standard_documented boundaryPath
    (by decide +kernel)).1 (.deleteObjectNs boundaryPath) _ response x sent .deleteObject rfl
    hexecute hsent
  exact ⟨response, x, sent, hexecute, hsent, hwhole.mpr fun hcreate => by cases hcreate⟩

/-- Creating an empty object at this path creates it at a prefix of the path,
which deleting at this path does not address. -/
theorem create_at_a_prefix :
    boundaryPath.length < atmosPathMax ∧
    ∃ call response x sent,
      (Operation.createObjectSimpleNs boundaryPath none none).call boundaryEnv = some call ∧
      call.execute boundaryEnv response = some (.next x) ∧ Event.sent sent ∈ x.trace ∧
      sent.uri = bytes "/rest/namespace" ++ boundaryPath.take 1008 ∧
      sent.uri ≠ bytes "/rest/namespace" ++ boundaryPath ∧
      (AtmosClient.deleteObjectNs boundaryPath).request.parent.uri =
        bytes "/rest/namespace" ++ boundaryPath := by
  let request : AtmosRequest :=
    { parent := RestRequest.init (namespaceUri atmosPathMax boundaryPath []) .post
      fields := .writeObject .zero }
  let start : Exchange := { request, response := .init .subclass, trace := [] }
  let lines : List CStr :=
    [headerLine httpHeaderContentType (bytes "application/octet-stream"),
      headerLine atmosHeaderUtf8 (bytes "true")]
  have hcall : (Operation.createObjectSimpleNs boundaryPath none none).call boundaryEnv =
      some (AtmosClient.createObject request) := rfl
  have hrun : run ([RestFilter.parseCreateResponse, .setWriteHeaders].reverse.map
      (RestFilter.before boundaryEnv)) start = some (.next (start.addHeaders lines)) := rfl
  obtain ⟨x, hexecute⟩ := execute_call_completes hrun (by decide)
  obtain ⟨sent, hsent⟩ := execute_sends (operation_ownFilters hcall) hexecute
  have huri : sent.uri = bytes "/rest/namespace" ++ boundaryPath.take 1008 := by
    rw [(execute_sent (operation_ownFilters hcall) hexecute hsent).uri]
    decide +kernel
  refine ⟨by decide +kernel, _, _, x, sent, hcall, hexecute, hsent, huri, ?_, by decide +kernel⟩
  rw [huri]
  decide +kernel

end Atmos
