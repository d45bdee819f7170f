import Atmos.CursorPaging
import Atmos.ListingRequests

/-!
# Listings page by page

The pages of a listing that is fetched with the token of the response before.

* `token_of_receive` — the token of a page is the one of the reply;
* `listing_pages` — the loop of the tests collects the pages of the listing;
* `reissued_pages` — the loop of the header does so up to the second page.
-/

namespace Atmos

open ByteText FixedMemory FilterChain CursorPaging XmlTree

/-! ## What a page says -/

section Replies

variable {env : ReplyEnv} {reply : Reply} {method : HttpMethod}

theorem parseUnless_parent {failed : Int → Bool}
    {parse : ResponseData → Except Fault ResponseData} {response response' : Response}
    (h : parseUnless failed parse response = .ok response') :
    response'.parent = response.parent := by
  unfold parseUnless at h
  split at h
  · cases h
    rfl
  · obtain ⟨data, -, rfl⟩ := map_eq_ok.mp h
    rfl

/-- The filters of an operation leave the fields of `AtmosResponse` alone. -/
theorem after_parent {family : Operation.Family} {f : RestFilter} (hf : f ∈ family.filters)
    {response response' : Response} (h : f.after env reply method response = .ok response') :
    response'.parent = response.parent := by
  have hdefault : f ≠ .executeCurlRequest ∧ f ≠ .parseAtmosError := by
    constructor <;>
    · rintro rfl
      cases family <;> simp [Operation.Family.filters] at hf
  cases f with
  | executeCurlRequest => exact absurd rfl hdefault.1
  | parseAtmosError => exact absurd rfl hdefault.2
  | setContentHeaders | signRequest | addUid | addDate | setWriteHeaders
  | setReadObjectHeaders | setGetUserMetaHeaders | updateObject | setPaginationHeaders =>
      cases h
      rfl
  | _ =>
      rw [RestFilter.after] at h
      exact parseUnless_parent h

theorem foldlM_parent {family : Operation.Family} {filters : List RestFilter}
    (hfilters : ∀ f ∈ filters, f ∈ family.filters) {response response' : Response}
    (h : filters.foldlM (fun response f => f.after env reply method response) response =
      .ok response') : response'.parent = response.parent := by
  induction filters generalizing response with
  | nil =>
      cases h
      rfl
  | cons f filters ih =>
      rw [List.foldlM_cons] at h
      cases hafter : f.after env reply method response with
      | error fault =>
          rw [hafter] at h
          cases h
      | ok middle =>
          rw [hafter] at h
          have hrest := ih (fun f hf => hfilters f (List.mem_cons_of_mem _ hf)) h
          exact hrest.trans (after_parent (hfilters f (List.mem_cons_self ..)) hafter)

/-- The operation that executes a request. -/
def RequestKind.operation : RequestKind → AtmosRequest → Operation
  | listDirectory => .listDirectory
  | listObjects => .listObjects
  | listVersions => .listVersions
  | getListableTags => .getListableTags
  | listAccessTokens => .listAccessTokens
  | readObject => .readObject
  | updateObject => .updateObject
  | createObject => .createObject

theorem RequestKind.operation_call (kind : RequestKind) (env : Env) (request : AtmosRequest) :
    (kind.operation request).call env = some (kind.call request) := by
  cases kind <;> rfl

theorem RequestKind.operation_family (kind : RequestKind) (request : AtmosRequest) :
    (kind.operation request).family = kind.family := by
  cases kind <;> rfl

/-- The filters that parse a listing store the token of the reply. -/
theorem token_of_parsed {kind : RequestKind} {fields : RequestFields}
    (haccepts : kind.accepts fields = true) (hpage : fields.asPaginated.isSome = true)
    {parent : AtmosResponse} (hcode : parent.httpCode = 200) {response : Response}
    (h : kind.family.filters.foldlM (fun response f => f.after env reply method response)
      ⟨parent, kind.family.data⟩ = .ok response) :
    response.data.token = reply.getHeaderValue env atmosHeaderToken := by
  have hle : (200 : Int) ≤ 299 := by decide
  have hone : ∀ {f : RestFilter}, kind.family.filters.filter (·.worksAfter) = [f] →
      f.after env reply method ⟨parent, kind.family.data⟩ = .ok response := by
    intro f hfilters
    obtain ⟨middle, hafter, hrest⟩ := after_of_filters hfilters h
    obtain rfl := Except.ok.inj hrest
    exact hafter
  cases kind with
  | listDirectory =>
      have htwo : Operation.Family.listDirectory.filters.filter (·.worksAfter) =
          [.parseReadObjectResponse, .listDirectory] := rfl
      obtain ⟨middle, hread, hrest⟩ := after_of_filters htwo h
      rw [RestFilter.after] at hread
      obtain ⟨object, -, hmiddle⟩ := map_eq_ok.mp (parse_of_after hle hcode hread)
      have hparent := parseUnless_parent hread
      obtain ⟨middleParent, middleData⟩ := middle
      obtain rfl : middleParent = parent := hparent
      obtain rfl : _ = middleData := hmiddle
      cases hlist : RestFilter.after env reply method .listDirectory
          ⟨middleParent, .listDirectory object none []⟩ with
      | error fault =>
          rw [List.foldlM_cons, hlist] at hrest
          cases hrest
      | ok last =>
          rw [List.foldlM_cons, hlist] at hrest
          obtain rfl := Except.ok.inj hrest
          rw [RestFilter.after] at hlist
          obtain ⟨entries, -, hdata⟩ := map_eq_ok.mp (parse_of_after hle hcode hlist)
          rw [← hdata]
          exact Option.or_none
  | listObjects =>
      have hafter := hone rfl
      rw [RestFilter.after] at hafter
      obtain ⟨results, -, hdata⟩ := map_eq_ok.mp (parse_of_after hle hcode hafter)
      rw [← hdata]
      exact Option.or_none
  | listVersions =>
      have hafter := hone rfl
      rw [RestFilter.after] at hafter
      obtain ⟨versions, -, hdata⟩ := map_eq_ok.mp (parse_of_after hle hcode hafter)
      rw [← hdata]
      exact Option.or_none
  | getListableTags =>
      have hafter := hone rfl
      rw [RestFilter.after] at hafter
      obtain ⟨tags, -, hdata⟩ := map_eq_ok.mp (parse_of_after hle hcode hafter)
      rw [← hdata]
      exact Option.or_none
  | listAccessTokens =>
      have hafter := hone rfl
      rw [RestFilter.after] at hafter
      obtain ⟨tokenList, -, hdata⟩ := map_eq_ok.mp (parse_of_after hle hcode hafter)
      rw [← hdata]
      exact Option.or_none
  | readObject =>
      cases fields with
      | readObject => cases hpage
      | _ => cases haccepts
  | updateObject =>
      cases fields with
      | updateObject => cases hpage
      | _ => cases haccepts
  | createObject =>
      cases fields with
      | writeObject => cases hpage
      | _ => cases haccepts

end Replies

namespace Listing

variable (listing : Listing)

/-- The token of a page is the one of the reply. -/
theorem token_of_receive {reply : Reply} {data : ResponseData}
    (h : listing.receive listing.new reply = some data) :
    data.token = reply.getHeaderValue listing.env atmosHeaderToken := by
  unfold receive at h
  split at h
  · rename_i response hreceive
    split at h
    · rename_i hcode
      cases h
      have hcall := listing.kind.operation_call listing.env.toEnv listing.new
      rw [receive_eq listing.env reply hcall, listing.kind.operation_family] at hreceive
      cases herrors : afterErrors listing.env reply
          (listing.kind.call listing.new).request.parent.method
          ⟨.init .subclass, listing.kind.family.data⟩ with
      | error fault =>
          rw [herrors] at hreceive
          cases hreceive
      | ok parsed =>
          rw [herrors] at hreceive
          have hdata := (afterErrors_eq_ok listing.env reply herrors).2
          obtain ⟨parent, data⟩ := parsed
          obtain rfl : data = listing.kind.family.data := hdata
          have hparent : response.parent = parent := foldlM_parent (fun f hf => hf) hreceive
          exact token_of_parsed listing.accepts listing.paginated (hparent ▸ hcode) hreceive
    · cases h
  · cases h

/-- A token of a reply does not start with a space. -/
theorem head_goOn {reply : Reply} (hcolon : ∀ line ∈ reply.headers, colon ∈ line) {token : CStr}
    (h : goOn (reply.getHeaderValue listing.env atmosHeaderToken) = some token) :
    token.head? ≠ some space := by
  have hvalue := (Option.filter_eq_some_iff.mp h).1
  obtain ⟨line, hline, rfl⟩ := Option.map_eq_some_iff.mp hvalue
  obtain ⟨name, tail, hname, hsplit, -⟩ :=
    exists_header_line (hcolon line (List.mem_of_find?_eq_some hline))
  rw [hsplit, listing.env.rest.headerValue_tail hname]
  exact head?_dropWhile_ne space tail

/-- A page of the loop in the tests is a page of the listing. -/
theorem fetch_eq_listed {server : List CStr → Reply} {token : CStr}
    (hspace : token.head? ≠ some space) (round : Nat) :
    listing.fetch server (round, token) =
      (listing.listed server token).map fun page => (page.1, page.2.map fun next =>
        (round + 1, next)) := by
  rw [fetch, listed]
  by_cases hlength : token.length < atmosTokenMax
  · obtain ⟨request', -, hexchange⟩ :=
      listing.exchange_eq listing.carries_new hlength hspace server round
    rw [List.nil_append] at hexchange
    rw [if_pos hlength, hexchange]
    dsimp only
    cases hdata : listing.receive listing.new (server (fieldTokens token)) with
    | none => rfl
    | some data =>
        dsimp only [Option.map_some]
        rw [listing.token_of_receive hdata]
  · rw [if_neg hlength, exchange, dif_neg hlength]
    rfl

/-- **The loop of the tests.**  With replies whose header lines have colons, it comes to its
end with some pages exactly when these are the pages of the listing, in their order, and
there are enough rounds. -/
theorem listing_pages {server : List CStr → Reply}
    (hcolon : ∀ tokens, ∀ line ∈ (server tokens).headers, colon ∈ line) {rounds : Nat}
    {pages : List ResponseData} :
    collect (listing.fetch server) rounds (0, []) = some (pages, none) ↔
      Pages (listing.listed server) [] pages ∧ pages.length ≤ rounds := by
  rw [collect_eq_iff]
  have hnext : ∀ token page next, listing.listed server token = some (page, some next) →
      next.head? ≠ some space := by
    intro token page next h
    rw [listed] at h
    split at h
    · obtain ⟨data, -, heq⟩ := Option.map_eq_some_iff.mp h
      exact listing.head_goOn (hcolon _) (Prod.mk.inj heq).2
    · cases h
  refine and_congr_left' ⟨fun h => ?_, fun h => ?_⟩
  · refine @Pages.simulated _ _ _ _ _ _ (fun s token => s.2 = token ∧ token.head? ≠ some space)
      ?_ _ h _ ⟨rfl, by decide⟩
    rintro ⟨round, token⟩ _ ⟨rfl, hspace⟩ page next hfetch
    rw [fetch_eq_listed listing hspace] at hfetch
    obtain ⟨⟨page', next'⟩, hlisted, heq⟩ := Option.map_eq_some_iff.mp hfetch
    cases heq
    refine ⟨next', hlisted, ?_⟩
    cases next' with
    | none => trivial
    | some next' => exact ⟨rfl, hnext _ _ _ hlisted⟩
  · refine @Pages.simulated _ _ _ _ _ _ (fun token s => s.2 = token ∧ token.head? ≠ some space)
      ?_ _ h _ ⟨rfl, by decide⟩
    rintro _ ⟨round, token⟩ ⟨rfl, hspace⟩ page next hlisted
    refine ⟨next.map fun next => (round + 1, next), ?_, ?_⟩
    · rw [fetch_eq_listed listing hspace, hlisted]
      rfl
    · cases next with
      | none => trivial
      | some next => exact ⟨rfl, hnext _ _ _ hlisted⟩

/-! ## Reissued requests -/

/-- A listing that goes on with a token: it fits the field, and it is not empty. -/
theorem listed_next {server : List CStr → Reply}
    (hcolon : ∀ tokens, ∀ line ∈ (server tokens).headers, colon ∈ line) {token next : CStr}
    {page : ResponseData} (h : listing.listed server token = some (page, some next)) :
    token.length < atmosTokenMax ∧ next ≠ [] ∧ next.head? ≠ some space := by
  rw [listed] at h
  split at h
  · rename_i hlength
    obtain ⟨data, -, heq⟩ := Option.map_eq_some_iff.mp h
    have hgo := (Prod.mk.inj heq).2
    have hne := (Option.filter_eq_some_iff.mp hgo).2
    exact ⟨hlength, by simpa using hne, listing.head_goOn (hcolon _) hgo⟩
  · cases h

theorem length_of_pages {server : List CStr → Reply} {token : CStr} {pages : List ResponseData}
    (h : Pages (listing.listed server) token pages) : token.length < atmosTokenMax := by
  by_contra hlength
  have hnone : listing.listed server token = none := if_neg hlength
  cases h with
  | last h => rw [hnone] at h; cases h
  | more h hnext => rw [hnone] at h; cases h

section FirstToken

variable {answer : Option CStr → Reply}
  (hcolon : ∀ token, ∀ line ∈ (answer token).headers, colon ∈ line)

/-- A reissued request gets the page for the first of its tokens. -/
theorem fetchAgain_eq_listed {tokens : List CStr} {request : AtmosRequest}
    (hcarries : listing.Carries tokens request) {token asked : CStr}
    (hlength : token.length < atmosTokenMax) (hspace : token.head? ≠ some space)
    (hlength' : asked.length < atmosTokenMax)
    (hasked : (tokens ++ fieldTokens token).head? = (fieldTokens asked).head?) (round : Nat) :
    ∃ request', listing.Carries (tokens ++ fieldTokens token) request' ∧
      listing.fetchAgain (fun tokens => answer tokens.head?) (round, request, token) =
        (listing.listed (fun tokens => answer tokens.head?) asked).map fun page =>
          (page.1, page.2.map fun next => (round + 1, request', next)) := by
  obtain ⟨request', hcarries', hexchange⟩ :=
    listing.exchange_eq hcarries hlength hspace (fun tokens => answer tokens.head?) round
  refine ⟨request', hcarries', ?_⟩
  rw [fetchAgain, listed, if_pos hlength', hexchange, hasked]
  dsimp only
  cases hdata : listing.receive listing.new (answer (fieldTokens asked).head?) with
  | none => rfl
  | some data =>
      dsimp only [Option.map_some]
      rw [listing.token_of_receive hdata]

/-- The state of a loop that asks for one page again and again. -/
def Stuck (token : CStr) (s : Nat × AtmosRequest × CStr) : Prop :=
  ∃ tokens, listing.Carries tokens s.2.1 ∧ (tokens ++ fieldTokens s.2.2).head? = some token ∧
    s.2.2.length < atmosTokenMax ∧ s.2.2.head? ≠ some space

theorem head_fieldTokens {token : CStr} (h : token ≠ []) :
    (fieldTokens token).head? = some token := by
  rw [fieldTokens, if_neg h]
  rfl

include hcolon

/-- Such a loop gets that page and goes on in the same way, whatever token comes with it. -/
theorem stuck_step {token next : CStr} {page : ResponseData} (hne : token ≠ [])
    (h : listing.listed (fun tokens => answer tokens.head?) token = some (page, some next))
    (hnext : next.length < atmosTokenMax) (s : Nat × AtmosRequest × CStr)
    (hs : listing.Stuck token s) :
    ∃ s', listing.fetchAgain (fun tokens => answer tokens.head?) s = some (page, some s') ∧
      listing.Stuck token s' := by
  obtain ⟨round, request, sent⟩ := s
  obtain ⟨tokens, hcarries, hhead, hlength, hspace⟩ := hs
  obtain ⟨hfits, -, hspace'⟩ := listing.listed_next (fun tokens => hcolon tokens.head?) h
  obtain ⟨request', hcarries', hfetch⟩ := @fetchAgain_eq_listed listing answer tokens request
    hcarries sent token hlength hspace hfits (by rw [hhead, head_fieldTokens hne]) round
  rw [h] at hfetch
  refine ⟨(round + 1, request', next), hfetch, _, hcarries', ?_, hnext, hspace'⟩
  rw [List.head?_append, hhead]
  rfl

/-- **The loop of the header**, with a server that reads the first token of a request.  It
collects the pages of a listing exactly when there are at most two; else it gets the second
one again and again. -/
theorem reissued_pages {pages : List ResponseData}
    (h : Pages (listing.listed fun tokens => answer tokens.head?) [] pages) :
    ((∃ rounds, collect (listing.fetchAgain fun tokens => answer tokens.head?) rounds
        (0, listing.new, []) = some (pages, none)) ↔ pages.length ≤ 2) ∧
      (2 < pages.length → ∃ first second, pages.take 2 = [first, second] ∧ ∀ rounds, ∃ rest,
        collect (listing.fetchAgain fun tokens => answer tokens.head?) (rounds + 1)
          (0, listing.new, []) = some (first :: List.replicate rounds second, some rest)) := by
  have hserver : ∀ tokens : List CStr, ∀ line ∈ (answer tokens.head?).headers, colon ∈ line :=
    fun tokens => hcolon tokens.head?
  have hempty : ([] : CStr).length < atmosTokenMax := by decide
  obtain ⟨request, hcarries, hfirst⟩ := @fetchAgain_eq_listed listing answer [] listing.new
    listing.carries_new [] [] hempty (by decide) hempty rfl 0
  cases h with
  | @last _ first h =>
      rw [h] at hfirst
      refine ⟨⟨fun _ => Nat.le_succ 1, fun _ => ⟨1, collect_last hfirst 0⟩⟩, ?_⟩
      intro hlong
      cases hlong with
      | step hlong => cases hlong
  | @more _ token first rest h hrest =>
      rw [h] at hfirst
      obtain ⟨-, hne, hspace⟩ := listing.listed_next hserver h
      have hlength := listing.length_of_pages hrest
      let start := (1, request, token)
      have hstart : listing.Stuck token start :=
        ⟨_, hcarries, head_fieldTokens hne, hlength, hspace⟩
      have hagain : ∀ rounds, collect (listing.fetchAgain fun tokens => answer tokens.head?)
          (rounds + 1) (0, listing.new, []) =
            (collect (listing.fetchAgain fun tokens => answer tokens.head?) rounds start).map
              fun rest => (first :: rest.1, rest.2) := fun rounds => collect_more hfirst rounds
      cases hrest with
      | @last _ second h' =>
          obtain ⟨request', -, hsecond⟩ := @fetchAgain_eq_listed listing answer _ request
            hcarries token token hlength hspace hlength rfl 1
          rw [h'] at hsecond
          refine ⟨⟨fun _ => Nat.le_refl 2, fun _ => ⟨2, ?_⟩⟩, ?_⟩
          · rw [hagain, collect_last hsecond]
            rfl
          · exact fun hlong => absurd hlong (Nat.lt_irrefl 2)
      | @more _ token' second rest h' hrest' =>
          have hround := listing.stuck_step hcolon hne h' (listing.length_of_pages hrest')
          have hrounds : ∀ rounds, ∃ state,
              collect (listing.fetchAgain fun tokens => answer tokens.head?) (rounds + 1)
                (0, listing.new, []) =
                  some (first :: List.replicate rounds second, some state) := by
            intro rounds
            obtain ⟨state, hcollect⟩ := collect_of_invariant hround hstart rounds
            exact ⟨state, by rw [hagain, hcollect]; rfl⟩
          have hthree : 2 < (first :: second :: rest).length := by
            have hpos := List.length_pos_of_ne_nil hrest'.ne_nil
            rw [List.length_cons, List.length_cons]
            omega
          refine ⟨⟨?_, fun hle => absurd hthree (Nat.not_lt.mpr hle)⟩,
            fun _ => ⟨first, second, rfl, hrounds⟩⟩
          intro ⟨rounds, hcollect⟩
          cases rounds with
          | zero => cases hcollect
          | succ n =>
              obtain ⟨state, hstate⟩ := hrounds n
              rw [hstate] at hcollect
              have hmore := (Prod.mk.inj (Option.some.inj hcollect)).2
              cases hmore

end FirstToken

end Listing

/-! ## Three pages of tags -/

/-- A page with one tag, and the token of the next page. -/
def tagPage (tag : CStr) (token : List CStr) : Reply where
  httpCode := 200
  httpStatus := bytes "OK"
  headers := headerLine atmosHeaderListableTags tag ::
    token.map (headerLine atmosHeaderToken)
  body := none
  contentLength := 0
  fileBody := none

/-- The pages of a server. -/
def tagAnswer (token : Option CStr) : Reply :=
  if token = none then tagPage (bytes "birds") [bytes "p2"]
  else if token = some (bytes "p2") then tagPage (bytes "fish") [bytes "p3"]
  else tagPage (bytes "frogs") []

/-- The listing of its tags. -/
def pagedTags : Listing where
  kind := .getListableTags
  new := (AtmosGetListableTagsRequest.init []).get (by decide)
  isNew := .getListableTags (Option.some_get ..).symm
  fields := .getListableTags .zero ⟨[], by decide⟩
  accepts := rfl
  paginated := rfl
  tag_length := by
    intro page tag listed h
    cases h
  env := blindEnv
  clock := fun _ => readerTime

theorem colon_tagAnswer (token : Option CStr) :
    ∀ line ∈ (tagAnswer token).headers, colon ∈ line := by
  have hpage : ∀ tag tokens, ∀ line ∈ (tagPage tag tokens).headers, colon ∈ line := by
    intro tag tokens line hline
    rcases List.mem_cons.mp hline with rfl | hline
    · exact colon_mem_headerLine ..
    · obtain ⟨token, -, rfl⟩ := List.mem_map.mp hline
      exact colon_mem_headerLine ..
  unfold tagAnswer
  split
  · exact hpage _ _
  · split <;> exact hpage _ _

theorem pagedTags_pages :
    Pages (pagedTags.listed fun tokens => tagAnswer tokens.head?) []
      [.getListableTags (some (bytes "p2")) (some [bytes "birds"]),
        .getListableTags (some (bytes "p3")) (some [bytes "fish"]),
        .getListableTags none (some [bytes "frogs"])] := by
  have hfirst : pagedTags.listed (fun tokens => tagAnswer tokens.head?) [] = some
    (.getListableTags (some (bytes "p2")) (some [bytes "birds"]), some (bytes "p2")) := rfl
  have hsecond : pagedTags.listed (fun tokens => tagAnswer tokens.head?) (bytes "p2") = some
    (.getListableTags (some (bytes "p3")) (some [bytes "fish"]), some (bytes "p3")) := rfl
  have hthird : pagedTags.listed (fun tokens => tagAnswer tokens.head?) (bytes "p3") = some
    (.getListableTags none (some [bytes "frogs"]), none) := rfl
  exact .more hfirst (.more hsecond (.last hthird))

/-- The loop of the tests gets three pages. -/
theorem listing_pages_tags :
    collect (pagedTags.fetch fun tokens => tagAnswer tokens.head?) 3 (0, []) = some
      ([.getListableTags (some (bytes "p2")) (some [bytes "birds"]),
        .getListableTags (some (bytes "p3")) (some [bytes "fish"]),
        .getListableTags none (some [bytes "frogs"])], none) :=
  (pagedTags.listing_pages fun tokens => colon_tagAnswer tokens.head?).mpr
    ⟨pagedTags_pages, Nat.le_refl 3⟩

/-! ## Three pages of versions -/

/-- The document of a page with one version. -/
def versionsBody (objectId : CStr) : List UInt8 :=
  bytes "<ListVersionsResponse xmlns='http://www.emc.com/cos/'><Ver><OID>" ++
    (objectId ++ bytes "</OID></Ver></ListVersionsResponse>")

def versionsRoot (objectId : CStr) : CStr × List Node :=
  (bytes "ListVersionsResponse", [.element (bytes "Ver") [.textElement verNodeOid objectId]])

/-- The page, and the token of the next one. -/
def versionsPage (objectId : CStr) (token : List CStr) : Reply where
  httpCode := 200
  httpStatus := bytes "OK"
  headers := token.map (headerLine atmosHeaderToken)
  body := some (versionsBody objectId)
  contentLength := .ofNat (versionsBody objectId).length
  fileBody := none

/-- The pages of a server. -/
def versionsAnswer (token : Option CStr) : Reply :=
  if token = none then versionsPage (bytes "4b1f") [bytes "p2"]
  else if token = some (bytes "p2") then versionsPage (bytes "4b2f") [bytes "p3"]
  else versionsPage (bytes "4b3f") []

/-- The listing of the versions, by a client that knows the documents. -/
def pagedVersions : Listing where
  kind := .listVersions
  new := AtmosListVersionsRequest.init (bytes "4b1f")
  isNew := .listVersions _
  fields := .paginated .zero
  accepts := rfl
  paginated := rfl
  tag_length := by
    intro page tag listed h
    cases h
  env :=
    { blindEnv with
      xml := .ofDocuments ([bytes "4b1f", bytes "4b2f", bytes "4b3f"].map fun objectId =>
        (versionsBody objectId, versionsRoot objectId)) }
  clock := fun _ => readerTime

theorem colon_versionsAnswer (token : Option CStr) :
    ∀ line ∈ (versionsAnswer token).headers, colon ∈ line := by
  have hpage : ∀ objectId tokens, ∀ line ∈ (versionsPage objectId tokens).headers,
      colon ∈ line := by
    intro objectId tokens line hline
    obtain ⟨token, -, rfl⟩ := List.mem_map.mp hline
    exact colon_mem_headerLine ..
  unfold versionsAnswer
  split
  · exact hpage _ _
  · split <;> exact hpage _ _

/-- A version with this identifier. -/
def versionOf (objectId : CStr) : AtmosVersion :=
  { AtmosVersion.init with objectId := .strncpy objectId }

set_option maxRecDepth 2000 in
theorem pagedVersions_pages :
    Pages (pagedVersions.listed fun tokens => versionsAnswer tokens.head?) []
      [.listVersions (some (bytes "p2")) [versionOf (bytes "4b1f")],
        .listVersions (some (bytes "p3")) [versionOf (bytes "4b2f")],
        .listVersions none [versionOf (bytes "4b3f")]] := by
  have hfirst : pagedVersions.listed (fun tokens => versionsAnswer tokens.head?) [] = some
    (.listVersions (some (bytes "p2")) [versionOf (bytes "4b1f")], some (bytes "p2")) := rfl
  have hsecond : pagedVersions.listed (fun tokens => versionsAnswer tokens.head?) (bytes "p2") =
    some (.listVersions (some (bytes "p3")) [versionOf (bytes "4b2f")], some (bytes "p3")) := rfl
  have hthird : pagedVersions.listed (fun tokens => versionsAnswer tokens.head?) (bytes "p3") =
    some (.listVersions none [versionOf (bytes "4b3f")], none) := rfl
  exact .more hfirst (.more hsecond (.last hthird))

/-- The loop of the header gets the second version again and again. -/
theorem reissued_pages_versions :
    ∃ first second, ∀ rounds, ∃ rest,
      collect (pagedVersions.fetchAgain fun tokens => versionsAnswer tokens.head?) (rounds + 1)
        (0, pagedVersions.new, []) =
          some (first :: List.replicate rounds second, some rest) := by
  obtain ⟨first, second, -, hrounds⟩ :=
    (pagedVersions.reissued_pages colon_versionsAnswer pagedVersions_pages).2 (Nat.le_refl 3)
  exact ⟨first, second, hrounds⟩

end Atmos
