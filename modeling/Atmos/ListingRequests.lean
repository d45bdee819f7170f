import Atmos.RequestReissue
import Atmos.UnparsedFailures

/-!
# Requests for pages

Where a listing is too long for one response, the server sends a token with it, and a
request with this token gets the next page.  The tests make a new request for every page;
the header of the client says to set the token on the request and to reissue it.

* `run_listing` — the headers for the fields are sent as they are;
* `exchange_eq` — a request asks for its page with all tokens it has ever been sent with.
-/

namespace Atmos

open ByteText FixedMemory FilterChain

/-! ## Tokens -/

/-- Set the field `token`. -/
def RequestFields.setToken (token : CStr) (h : token.length < atmosTokenMax) :
    RequestFields → RequestFields
  | paginated page => paginated { page with token, token_length := h }
  | listDirectory page listed => listDirectory { page with token, token_length := h } listed
  | listObjects page tag listed => listObjects { page with token, token_length := h } tag listed
  | getListableTags page parentTag =>
      getListableTags { page with token, token_length := h } parentTag
  | fields => fields

/-- The field `token` of a response. -/
def ResponseData.token : ResponseData → Option CStr
  | listDirectory _ token _ | getListableTags token _ | listObjects token _
  | listVersions token _ | listAccessTokens token _ => token
  | _ => none

/-- The family of the operation that executes a request. -/
def RequestKind.family : RequestKind → Operation.Family
  | listDirectory => .listDirectory
  | listObjects => .listObjects
  | listVersions => .listVersions
  | getListableTags => .listableTags
  | listAccessTokens => .listAccessTokens
  | readObject => .read
  | updateObject => .update
  | createObject => .create

/-- What a request was sent as. -/
def Exchange.sent? (x : Exchange) : Option RestRequest :=
  x.trace.findSome? fun
    | .sent request => some request
    | .signed _ _ => none

/-- The tokens in the headers of a request. -/
def headerTokens (rest : RestClient) (request : RestRequest) : List CStr :=
  (linesNamed atmosHeaderToken request.headers).map rest.headerValue

/-- The tokens a request is given by its field. -/
def fieldTokens (token : CStr) : List CStr := if token = [] then [] else [token]

/-! ## The loops -/

/-- A listing as an application sets it up: a new request and its fields, the client, and
the times at which the pages are fetched. -/
structure Listing where
  kind : RequestKind
  new : AtmosRequest
  isNew : IsNew kind none new
  fields : RequestFields
  accepts : kind.accepts fields = true
  paginated : fields.asPaginated.isSome = true
  /-- A listable tag fits the buffer of its filter. -/
  tag_length : ∀ page tag listed, fields = .listObjects page tag listed →
    tag.length < atmosMetaNameMax
  env : ReplyEnv
  clock : Nat → Tm

namespace Listing

variable (listing : Listing)

theorem accepts_setToken {kind : RequestKind} {fields : RequestFields} {token : CStr}
    (h : token.length < atmosTokenMax) (haccepts : kind.accepts fields = true) :
    kind.accepts (fields.setToken token h) = true := by
  cases kind <;> cases fields <;> first | rfl | cases haccepts

/-- The execution for a page, with the token of the page before. -/
def issue (round : Nat) (token : CStr) (h : token.length < atmosTokenMax) :
    Issue listing.kind where
  env := { listing.env.toEnv with now := listing.clock round }
  fields := listing.fields.setToken token h
  accepts := accepts_setToken h listing.accepts
  body := none
  response := .init .subclass

/-- What the filters make of a reply, in a new response.  The tests go on with pages that
have the status 200. -/
def receive (request : AtmosRequest) (reply : Reply) : Option ResponseData :=
  match (listing.kind.call request).receive listing.env reply
      ⟨.init .subclass, listing.kind.family.data⟩ with
  | .ok response => if response.parent.httpCode = 200 then some response.data else none
  | .error _ => none

/-- One page: the request is executed with the token, and the server answers to the tokens
it finds in the headers.  This gives the response and the request object after it. -/
def exchange (server : List CStr → Reply) (request : AtmosRequest) (round : Nat)
    (token : CStr) : Option (ResponseData × AtmosRequest) :=
  if h : token.length < atmosTokenMax then
    match (listing.issue round token h).execute request with
    | some (.next x) => do
        let sent ← x.sent?
        let data ← listing.receive ((listing.issue round token h).prepare request)
          (server (headerTokens listing.env.rest sent))
        some (data, x.request)
    | _ => none
  else none

/-- `while(strlen(token)>0)` -/
def goOn (token : Option CStr) : Option CStr := token.filter (· ≠ [])

/-- A round of the loops in the tests: a new request for every page. -/
def fetch (server : List CStr → Reply) :
    Nat × CStr → Option (ResponseData × Option (Nat × CStr))
  | (round, token) =>
      (listing.exchange server listing.new round token).map fun page =>
        (page.1, (goOn page.1.token).map fun token => (round + 1, token))

/-- A round of the loop in the header: the request of the page before is reissued. -/
def fetchAgain (server : List CStr → Reply) :
    Nat × AtmosRequest × CStr → Option (ResponseData × Option (Nat × AtmosRequest × CStr))
  | (round, request, token) =>
      (listing.exchange server request round token).map fun page =>
        (page.1, (goOn page.1.token).map fun token => (round + 1, page.2, token))

/-- The listing of a server: the page it gives for a token, and the token it sends with
it.  A token that has no room in a request leads nowhere. -/
def listed (server : List CStr → Reply) (token : CStr) :
    Option (ResponseData × Option CStr) :=
  if token.length < atmosTokenMax then
    let reply := server (fieldTokens token)
    (listing.receive listing.new reply).map fun data =>
      (data, goOn (reply.getHeaderValue listing.env atmosHeaderToken))
  else none

/-! ## What a page asks for -/

theorem paginated_setToken {fields : RequestFields} {token : CStr}
    (h : token.length < atmosTokenMax) {page : AtmosPaginatedRequest}
    (hpage : fields.asPaginated = some page) :
    (fields.setToken token h).asPaginated = some { page with token, token_length := h } := by
  cases fields <;> cases hpage <;> rfl

end Listing

/-- The tag of a listing fits the buffer of the filter. -/
theorem listObjects_fields {env : Env} {x : Exchange} {page : AtmosPaginatedRequest} {tag : CStr}
    {listed : ListedMetadata} (hfields : x.request.fields = .listObjects page tag listed)
    (htag : tag.length < atmosMetaNameMax) :
    AtmosFilter.listObjects env x = some (.next (x.addHeaders ((utf8Headers env ++
      (tagsHeaders env.curl env.atmos.enableUtf8Metadata [tag] ++
      listedHeaders env listed)).map Header.line))) := by
  have hsome : ∃ x', AtmosFilter.listObjects env x = some (.next x') := by
    unfold AtmosFilter.listObjects
    rw [hfields]
    dsimp only
    rw [if_pos htag]
    exact ⟨_, rfl⟩
  obtain ⟨x', hx'⟩ := hsome
  obtain ⟨page', tag', listed', hsame, rfl⟩ := listObjects_eq_next hx'
  rw [hfields] at hsame
  cases hsame
  exact hx'

theorem getListableTags_fields {env : Env} {x : Exchange} {page : AtmosPaginatedRequest}
    {parentTag : ParentTag} (hfields : x.request.fields = .getListableTags page parentTag) :
    AtmosFilter.getListableTags env x = some (.next
      (x.addHeaders ((parentTagHeaders parentTag ++ utf8Headers env).map Header.line))) := by
  have hsome : ∃ x', AtmosFilter.getListableTags env x = some (.next x') := by
    unfold AtmosFilter.getListableTags
    rw [hfields]
    exact ⟨_, rfl⟩
  obtain ⟨x', hx'⟩ := hsome
  obtain ⟨page', parentTag', hsame, rfl⟩ := getListableTags_eq_next hx'
  rw [hfields] at hsame
  cases hsame
  exact hx'

/-- The filters of a listing add the headers for its fields, to any request. -/
theorem run_listing {kind : RequestKind} {issue : Issue kind} (request : AtmosRequest)
    (hpage : issue.fields.asPaginated.isSome = true)
    (htag : ∀ page tag listed, issue.fields = .listObjects page tag listed →
      tag.length < atmosMetaNameMax) :
    run (kind.filters.reverse.map (RestFilter.before issue.env)) (issue.start request) =
      some (.next ((issue.start request).addHeaders
        ((fieldHeaders issue.env issue.body issue.fields).map Header.line))) := by
  have haccepts := issue.accepts
  have hfields : (issue.start request).request.fields = issue.fields := rfl
  generalize issue.start request = x at *
  generalize issue.fields = fields at *
  cases kind with
  | listDirectory =>
      cases fields with
      | listDirectory page listed =>
          have hpaged : x.request.fields.asPaginated = some page := by rw [hfields]; rfl
          have hlist : (x.addHeaders ((pageHeaders page).map Header.line)).request.fields =
              .listDirectory page listed := hfields
          refine run_cons_eq_next.mpr ⟨_, setPaginationHeaders_eq hpaged, ?_⟩
          refine run_pair_eq_next.mpr ⟨_, listDirectory_eq hlist, ?_⟩
          rw [Exchange.addHeaders_addHeaders, ← List.map_append]
          rfl
      | _ => cases haccepts
  | listObjects =>
      cases fields with
      | listObjects page tag listed =>
          have hpaged : x.request.fields.asPaginated = some page := by rw [hfields]; rfl
          have hlist : (x.addHeaders ((pageHeaders page).map Header.line)).request.fields =
              .listObjects page tag listed := hfields
          have hfilter := @listObjects_fields issue.env _ _ _ _ hlist (htag page tag listed rfl)
          rw [Exchange.addHeaders_addHeaders, ← List.map_append] at hfilter
          exact run_pair_eq_next.mpr ⟨_, setPaginationHeaders_eq hpaged, hfilter⟩
      | _ => cases haccepts
  | listVersions =>
      cases fields with
      | paginated page =>
          have hpaged : x.request.fields.asPaginated = some page := by rw [hfields]; rfl
          exact run_pair_eq_next.mpr ⟨_, setPaginationHeaders_eq hpaged, rfl⟩
      | _ => cases haccepts
  | getListableTags =>
      cases fields with
      | getListableTags page parentTag =>
          have hpaged : (x.addHeaders ((parentTagHeaders parentTag ++
              utf8Headers issue.env).map Header.line)).request.fields.asPaginated = some page := by
            rw [Exchange.fields_addHeaders, hfields]
            rfl
          have hfilter := setPaginationHeaders_eq hpaged
          rw [Exchange.addHeaders_addHeaders, ← List.map_append] at hfilter
          exact run_pair_eq_next.mpr ⟨_, getListableTags_fields hfields, hfilter⟩
      | _ => cases haccepts
  | listAccessTokens =>
      cases fields with
      | paginated page =>
          have hpaged : x.request.fields.asPaginated = some page := by rw [hfields]; rfl
          exact run_pair_eq_next.mpr ⟨_, rfl, setPaginationHeaders_eq hpaged⟩
      | _ => cases haccepts
  | readObject =>
      cases fields with
      | readObject => cases hpage
      | _ => cases haccepts
  | updateObject =>
      cases fields with
      | updateObject => cases hpage
      | _ => cases haccepts
  | createObject =>
      cases fields with
      | writeObject => cases hpage
      | _ => cases haccepts

theorem linesNamed_pageToken (page : AtmosPaginatedRequest) :
    linesNamed atmosHeaderToken ((pageHeaders page).map Header.line) =
      (fieldTokens page.token).map (headerLine atmosHeaderToken) := by
  have hlimit : linesNamed atmosHeaderToken ((headerIf (0 < page.limit) atmosHeaderLimit
      (decimal page.limit.toInt)).map Header.line) = [] :=
    (named_headerIf _ _ _).linesNamed_eq_nil (by decide)
  rw [pageHeaders, List.map_append, linesNamed_append, hlimit, List.append_nil, headerIf,
    fieldTokens]
  by_cases htoken : page.token = []
  · rw [if_pos htoken, if_neg (by simp [htoken])]
    rfl
  · rw [if_neg htoken, if_pos (List.length_pos_of_ne_nil htoken), List.map_singleton,
      List.map_singleton, Header.line, headerLine_eq]
    exact linesNamed_line (by decide) _

/-- The headers for the fields have the token of the page, once. -/
theorem linesNamed_fieldToken (env : Env) (body : Option RequestBody) {fields : RequestFields}
    {page : AtmosPaginatedRequest} (hpage : fields.asPaginated = some page) :
    linesNamed atmosHeaderToken ((fieldHeaders env body fields).map Header.line) =
      (fieldTokens page.token).map (headerLine atmosHeaderToken) := by
  have hutf8 : linesNamed atmosHeaderToken ((utf8Headers env).map Header.line) = [] :=
    (named_utf8Headers env).linesNamed_eq_nil (by decide)
  have hlisted : ∀ listed, linesNamed atmosHeaderToken
      ((listedHeaders env listed).map Header.line) = [] := fun listed =>
    (named_listedHeaders env listed).linesNamed_eq_nil (by decide)
  cases fields with
  | paginated =>
      cases hpage
      exact linesNamed_pageToken page
  | listDirectory page' listed =>
      cases hpage
      rw [fieldHeaders, List.map_append, List.map_append, linesNamed_append, linesNamed_append,
        hutf8, hlisted, List.append_nil, linesNamed_pageToken]
      exact List.append_nil _
  | listObjects page' tag listed =>
      cases hpage
      have htags : linesNamed atmosHeaderToken ((tagsHeaders env.curl
          env.atmos.enableUtf8Metadata [tag]).map Header.line) = [] :=
        (named_tagsHeaders _ _ _).linesNamed_eq_nil (by decide)
      rw [fieldHeaders, List.map_append, List.map_append, List.map_append, linesNamed_append,
        linesNamed_append, linesNamed_append, hutf8, htags, hlisted, linesNamed_pageToken]
      exact List.append_nil _
  | getListableTags page' parentTag =>
      cases hpage
      have htag : linesNamed atmosHeaderToken ((parentTagHeaders parentTag).map Header.line) =
          [] := (named_parentTagHeaders parentTag).linesNamed_eq_nil (by decide)
      rw [fieldHeaders, List.map_append, List.map_append, linesNamed_append, linesNamed_append,
        htag, hutf8, linesNamed_pageToken]
      rfl
  | _ => cases hpage

namespace Listing

variable (listing : Listing)

/-- The state of a request object that has been sent with some tokens. -/
structure Carries (tokens : List CStr) (request : AtmosRequest) : Prop where
  method : request.parent.method = listing.new.parent.method
  colons : ∀ line ∈ request.parent.headers, colon ∈ line
  tokens : headerTokens listing.env.rest request.parent = tokens

theorem carries_new : listing.Carries [] listing.new := by
  have hheaders := newRequest_headers listing.isNew
  refine ⟨rfl, ?_, ?_⟩
  · rw [hheaders]
    exact fun line hline => absurd hline List.not_mem_nil
  · rw [headerTokens, hheaders]
    rfl

theorem receive_congr {request request' : AtmosRequest}
    (h : request.parent.method = request'.parent.method) (reply : Reply) :
    listing.receive request reply = listing.receive request' reply := by
  have hparent : ∀ (kind : RequestKind) (request : AtmosRequest),
      (kind.call request).request.parent.method = request.parent.method := by
    intro kind request
    cases kind <;> rfl
  have hchain : (listing.kind.call request).chain = (listing.kind.call request').chain := by
    cases listing.kind <;> rfl
  rw [receive, receive, Call.receive, Call.receive, hparent, hparent, h, hchain]

theorem mem_fieldHeaders_colon {env : Env} {body : Option RequestBody} {fields : RequestFields}
    {headers : List CStr} (h : ∀ line ∈ headers, colon ∈ line) :
    ∀ line ∈ headers ++ (fieldHeaders env body fields).map Header.line, colon ∈ line := by
  intro line hline
  rcases List.mem_append.mp hline with hline | hline
  · exact h line hline
  · obtain ⟨header, -, rfl⟩ := List.mem_map.mp hline
    exact colon_mem_headerLine ..

/-- **What a page asks for.**  A request that has been sent before goes on with all the
tokens it was sent with, and then the new one. -/
theorem exchange_eq {tokens : List CStr} {request : AtmosRequest}
    (hcarries : listing.Carries tokens request) {token : CStr}
    (hlength : token.length < atmosTokenMax) (hspace : token.head? ≠ some space)
    (server : List CStr → Reply) (round : Nat) :
    ∃ request', listing.Carries (tokens ++ fieldTokens token) request' ∧
      listing.exchange server request round token =
        (listing.receive listing.new (server (tokens ++ fieldTokens token))).map
          fun data => (data, request') := by
  let issue := listing.issue round token hlength
  let y := (issue.start request).addHeaders
    ((fieldHeaders issue.env issue.body issue.fields).map Header.line)
  obtain ⟨page, hpage⟩ := Option.isSome_iff_exists.mp listing.paginated
  have hfields : issue.fields.asPaginated = some { page with token, token_length := hlength } :=
    paginated_setToken hlength hpage
  have htag : ∀ page tag listed, issue.fields = .listObjects page tag listed →
      tag.length < atmosMetaNameMax := by
    intro page' tag listed h
    have hset : listing.fields.setToken token hlength = .listObjects page' tag listed := h
    cases hbefore : listing.fields with
    | listObjects page tag' listed' =>
        rw [hbefore] at hset
        cases hset
        exact listing.tag_length page tag listed hbefore
    | _ =>
        rw [hbefore] at hset
        cases hset
  have hrun := @run_listing listing.kind issue request (by rw [hfields]; rfl) htag
  -- the request is signed and sent
  have hcolons : ∀ line ∈ y.headers, colon ∈ line := mem_fieldHeaders_colon hcarries.colons
  have hcanonical := (canonicalizeRequest_isSome issue.env.rest _).mpr
    (@colon_mem_requestToSign issue.env y.request.parent hcolons)
  obtain ⟨hashString, hhash⟩ := Option.isSome_iff_exists.mp hcanonical
  have hcall : (AtmosClient.call (issue.prepare request) listing.kind.filters).execute issue.env
      issue.response = some (.next (y.signedAndSent issue.env hashString)) :=
    execute_call_eq_next.mpr ⟨y, hashString, hrun, hhash, rfl⟩
  have hexecute : issue.execute request = some (.next (y.signedAndSent issue.env hashString)) := by
    rw [Issue.execute, RequestKind.call_eq]
    exact hcall
  let sent := (requestToSign issue.env y.request.parent).addHeader
    (signatureLine issue.env hashString)
  have hsent : (y.signedAndSent issue.env hashString).sent? = some sent := rfl
  -- it carries the lines of the request and one for the new token
  have hlines : linesNamed atmosHeaderToken sent.headers =
      linesNamed atmosHeaderToken request.parent.headers ++
        (fieldTokens token).map (headerLine atmosHeaderToken) := by
    obtain ⟨y', hrun', -, hlines⟩ := @linesNamed_sent issue.env _ _ _ _ sent atmosHeaderToken
      (by decide) (by decide) listing.kind.filters_own hcall
      (List.mem_append_right _ (List.mem_cons_of_mem _ (List.mem_singleton_self _)))
    have hsame := hrun.symm.trans hrun'
    cases hsame
    have huid : linesNamed atmosHeaderToken [uidLine issue.env] = [] :=
      linesNamed_other (by decide) (by decide) _
    rw [hlines, huid, List.append_nil, Exchange.headers_addHeaders, linesNamed_append,
      linesNamed_fieldToken issue.env issue.body hfields]
    rfl
  have htokens : headerTokens listing.env.rest sent = tokens ++ fieldTokens token := by
    have hvalue : (fieldTokens token).map
        (listing.env.rest.headerValue ∘ headerLine atmosHeaderToken) = fieldTokens token := by
      rw [fieldTokens]
      split
      · rfl
      · rw [List.map_singleton, Function.comp_apply,
          listing.env.rest.headerValue_headerLine (by decide) hspace]
    rw [headerTokens, hlines, List.map_append, List.map_map, hvalue]
    congr 1
    exact hcarries.tokens
  refine ⟨(y.signedAndSent issue.env hashString).request, ⟨hcarries.method, ?_, htokens⟩, ?_⟩
  · intro line hline
    rcases List.mem_append.mp hline with hline | hline
    · exact @colon_mem_requestToSign issue.env y.request.parent hcolons line hline
    · rw [List.mem_singleton.mp hline]
      exact List.mem_append_right _ (List.mem_cons_self ..)
  · have hmethod : (issue.prepare request).parent.method = listing.new.parent.method :=
      hcarries.method
    rw [exchange, dif_pos hlength]
    change (match issue.execute request with | some (.next x) => _ | _ => none) = _
    rw [hexecute]
    dsimp only
    rw [hsent, Option.bind_eq_bind, Option.bind_some, htokens, listing.receive_congr hmethod]
    cases listing.receive listing.new (server (tokens ++ fieldTokens token)) <;> rfl

end Listing

end Atmos
