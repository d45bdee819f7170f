import Atmos.ShareableUrl
import Atmos.SignatureVerification

/-!
# Verifying a shareable URL

A URL is signed with the secret that signs requests, and over a string of the same kind:
lines, of which the first is the method.  Whoever knows the secret reads the parameters off
the URL, makes the string to sign again and compares: `verifyUrl` does so.

* `hashString_eq_iff` — what the string to sign of a URL pins down;
* `url_verify_iff` — a URL of the client is accepted if none of its lengths is cut, and with
  its signature nothing else is;
* `hashString_ne` — a dated request and a URL have different strings to sign;
* `request_signature_apart`, `url_signature_apart` — so neither signature is good for the
  other.
-/

namespace Atmos

open ByteText FixedMemory QueryString

/-! ## Taking a URL apart -/

/-- What a URL asks for, and the signature it carries. -/
structure SharedUrl where
  path : CStr
  uid : CStr
  expires : CStr
  disposition : Option CStr
  signature : CStr
  deriving DecidableEq

/-- A URL behind its origin, read: the path up to the first `?` and the parameters. -/
def readSharedUrl (target : CStr) : Option SharedUrl :=
  match cut question target with
  | (_, none) => none
  | (path, some text) => do
      let params ← readQuery text
      let uid ← parameterValue params (bytes "uid")
      let expires ← parameterValue params (bytes "expires")
      let signature ← parameterValue params (bytes "signature")
      let disposition := parameterValue params (bytes "disposition")
      return { path, uid, expires, disposition, signature }

namespace SharedUrl

/-- The lines of the string to sign before the time. -/
def signedFields (u : SharedUrl) : List CStr :=
  [HttpMethod.get.verb, ByteText.lowercase u.path, u.uid]

/-- The time and the disposition, as they end the string to sign. -/
def signedEnd (u : SharedUrl) : CStr :=
  u.expires ++ (u.disposition.elim [] fun disposition => newline :: disposition)

/-- The string to sign, made again. -/
def hashString (u : SharedUrl) : CStr :=
  u.signedFields.foldr (fun field text => field ++ newline :: text) u.signedEnd

/-- No newlines but in the disposition, which ends the string to sign. -/
structure IsPlain (u : SharedUrl) : Prop where
  path : newline ∉ u.path
  uid : newline ∉ u.uid
  expires : newline ∉ u.expires

/-- Two URLs ask for the same, up to the letter case of the path. -/
structure SameShared (u u' : SharedUrl) : Prop where
  path : ByteText.lowercase u.path = ByteText.lowercase u'.path
  uid : u.uid = u'.uid
  expires : u.expires = u'.expires
  disposition : u.disposition = u'.disposition

theorem newline_notMem_signedFields {u : SharedUrl} (hpath : newline ∉ u.path)
    (huid : newline ∉ u.uid) : ∀ field ∈ u.signedFields, newline ∉ field := by
  intro field hfield
  rw [signedFields] at hfield
  simp only [List.mem_cons, List.not_mem_nil, or_false] at hfield
  rcases hfield with rfl | rfl | rfl
  · exact newline_notMem_verb _
  · exact fun hmem => hpath (newline_mem_lowercase.mp hmem)
  · exact huid

/-- The end of the string to sign pins down both its parts. -/
theorem signedEnd_inj {u u' : SharedUrl} (h : newline ∉ u.expires) (h' : newline ∉ u'.expires)
    (heq : u.signedEnd = u'.signedEnd) :
    u.expires = u'.expires ∧ u.disposition = u'.disposition := by
  rw [signedEnd, signedEnd] at heq
  cases hdisposition : u.disposition with
  | none =>
      cases hdisposition' : u'.disposition with
      | none =>
          rw [hdisposition, hdisposition'] at heq
          exact ⟨by simpa using heq, rfl⟩
      | some disposition' =>
          rw [hdisposition, hdisposition', Option.elim_none, Option.elim_some,
            List.append_nil] at heq
          rw [heq] at h
          exact absurd (List.mem_append_right _ (List.mem_cons_self ..)) h
  | some disposition =>
      cases hdisposition' : u'.disposition with
      | none =>
          rw [hdisposition, hdisposition', Option.elim_none, Option.elim_some,
            List.append_nil] at heq
          rw [← heq] at h'
          exact absurd (List.mem_append_right _ (List.mem_cons_self ..)) h'
      | some disposition' =>
          rw [hdisposition, hdisposition'] at heq
          obtain ⟨hexpires, htail⟩ := append_sep_inj h h' heq
          exact ⟨hexpires, congrArg some htail⟩

/-- Two URLs have the same string to sign exactly when they ask for the same. -/
theorem hashString_eq_iff {u u' : SharedUrl} (h : u.IsPlain) (h' : u'.IsPlain) :
    u.hashString = u'.hashString ↔ SameShared u u' := by
  constructor
  · intro heq
    have hlength : u.signedFields.length = u'.signedFields.length := rfl
    obtain ⟨hfields, hend⟩ := foldr_sep_inj hlength (newline_notMem_signedFields h.path h.uid)
      (newline_notMem_signedFields h'.path h'.uid) heq
    obtain ⟨hexpires, hdisposition⟩ := signedEnd_inj h.expires h'.expires hend
    obtain ⟨-, hfields⟩ := List.cons.inj hfields
    obtain ⟨hpath, hfields⟩ := List.cons.inj hfields
    exact ⟨hpath, (List.cons.inj hfields).1, hexpires, hdisposition⟩
  · intro hsame
    rw [hashString, hashString, signedFields, signedFields, signedEnd, signedEnd, hsame.path,
      hsame.uid, hsame.expires, hsame.disposition]

end SharedUrl

/-- Whether a URL carries the signature of what it asks for. -/
def verifyUrl (sign : CStr → CStr) (target : CStr) : Bool :=
  (readSharedUrl target).any fun u => decide (u.signature = sign u.hashString)

theorem verifyUrl_of_read {sign : CStr → CStr} {target : CStr} {u : SharedUrl}
    (hread : readSharedUrl target = some u) :
    verifyUrl sign target = true ↔ u.signature = sign u.hashString := by
  rw [verifyUrl, hread, Option.any_some, decide_eq_true_iff]

/-! ## URLs of the client -/

/-- What the client puts into a URL. -/
def sharedBy (env : Env) (uri : CStr) (expires : Int64) (disposition : Option CStr) :
    SharedUrl where
  path := uri
  uid := env.atmos.uid
  expires := decimal expires.toInt
  disposition := disposition
  signature := env.atmos.sign env.openssl
    (env.atmos.shareableHashString uri (decimal expires.toInt) disposition)

/-- What is read from it: as much of the texts as is encoded. -/
def writtenBy (env : Env) (uri : CStr) (expires : Int64) (disposition : Option CStr) :
    SharedUrl :=
  { sharedBy env uri expires disposition with
    uid := escapedText env.atmos.uid
    disposition := disposition.map escapedText }

section Shared

variable (env : Env) (uri : CStr) (expires : Int64) (disposition : Option CStr)

/-- The client signs the string that is made again. -/
theorem hashString_sharedBy :
    (sharedBy env uri expires disposition).hashString =
      env.atmos.shareableHashString uri (decimal expires.toInt) disposition := by
  have hget : bytes "GET\n" = HttpMethod.get.verb ++ [newline] := by decide
  have hnewline : bytes "\n" = [newline] := by decide
  unfold AtmosClient.shareableHashString AtmosClient.shareableText AtmosUtil.lowercase
  rw [hget, hnewline]
  unfold SharedUrl.hashString SharedUrl.signedFields SharedUrl.signedEnd
  cases disposition with
  | none => simp [sharedBy]
  | some disposition => simp [sharedBy]

/-- A URL reads back. -/
theorem readSharedUrl_query (hquestion : question ∉ uri) :
    readSharedUrl (uri ++ question :: query (writtenParameters env uri expires disposition)) =
      some (writtenBy env uri expires disposition) := by
  have hread := readQuery_written env uri expires disposition
  have hvalues : writtenBy env uri expires disposition =
      { path := uri
        uid := escapedText env.atmos.uid
        expires := escapedText (decimal expires.toInt)
        disposition := disposition.map escapedText
        signature := escapedText (env.atmos.sign env.openssl
          (env.atmos.shareableHashString uri (decimal expires.toInt) disposition)) } := by
    rw [escapedText_decimal, escapedText_sign]
    rfl
  rw [readSharedUrl, cut_append_sep hquestion]
  change (readQuery (query (writtenParameters env uri expires disposition))).bind _ = _
  rw [hread, hvalues]
  cases disposition with
  | none => rfl
  | some disposition => rfl

theorem newline_notMem_decimal (n : Int) : newline ∉ decimal n := by
  intro hmem
  have hbyte : PercentEncoding.unreserved newline = false := by decide
  have hencoded := PercentEncoding.notMem_encode hbyte (by decide) (decimal n)
  rw [encode_decimal] at hencoded
  exact hencoded hmem

end Shared

/-- What is read asks for the same exactly when no length has been cut. -/
theorem sameShared_written_iff (env : Env) (uri : CStr) (expires : Int64)
    (disposition : Option CStr) :
    SharedUrl.SameShared (sharedBy env uri expires disposition)
        (writtenBy env uri expires disposition) ↔
      Uncut env.atmos.uid ∧ ∀ text, disposition = some text → Uncut text := by
  have hdisposition : disposition = disposition.map escapedText ↔
      ∀ text, disposition = some text → Uncut text := by
    cases disposition with
    | none => simp
    | some disposition => simp [← escapedText_eq_self_iff, eq_comm]
  rw [← hdisposition, ← escapedText_eq_self_iff]
  constructor
  · intro hsame
    exact ⟨hsame.uid.symm, hsame.disposition⟩
  · intro ⟨huid, hdisposition⟩
    exact ⟨rfl, huid.symm, rfl, hdisposition⟩

/-- **What a URL protects.**  A URL that carries the signature of one of the client's is
accepted exactly when it asks for the same, where the path may differ in letter case and
nothing else, or its string to sign collides with the one that was signed.  So is the client's
own: it asks for the same exactly when no length has been cut. -/
theorem url_verify_iff {env : Env} (hcurl : env.curl.Documented) {uri : CStr}
    (hquestion : question ∉ uri) (huri : newline ∉ uri) (huid : newline ∉ env.atmos.uid)
    (expires : Int64) (disposition : Option CStr) :
    (uri.length < 2147483648 → ∃ own,
      AtmosClient.getShareableUrlInternal env uri expires disposition =
        some (env.atmos.origin ++ own) ∧
      (verifyUrl (env.atmos.sign env.openssl) own = true ↔
        UrlFits env uri disposition ∨
          Collide (env.atmos.sign env.openssl)
            (sharedBy env uri expires disposition).hashString
            (writtenBy env uri expires disposition).hashString)) ∧
    ∀ target u, readSharedUrl target = some u → u.IsPlain →
      u.signature = (sharedBy env uri expires disposition).signature →
      (verifyUrl (env.atmos.sign env.openssl) target = true ↔
        SharedUrl.SameShared (sharedBy env uri expires disposition) u ∨
          Collide (env.atmos.sign env.openssl)
            (sharedBy env uri expires disposition).hashString u.hashString) := by
  have hplain : (sharedBy env uri expires disposition).IsPlain :=
    ⟨huri, huid, newline_notMem_decimal _⟩
  have hsigned : (sharedBy env uri expires disposition).signature =
      env.atmos.sign env.openssl (sharedBy env uri expires disposition).hashString := by
    rw [hashString_sharedBy]
    rfl
  have hother : ∀ target u, readSharedUrl target = some u → u.IsPlain →
      u.signature = (sharedBy env uri expires disposition).signature →
      (verifyUrl (env.atmos.sign env.openssl) target = true ↔
        SharedUrl.SameShared (sharedBy env uri expires disposition) u ∨
          Collide (env.atmos.sign env.openssl)
            (sharedBy env uri expires disposition).hashString u.hashString) := by
    intro target u hread hu hcarries
    rw [verifyUrl_of_read hread, hcarries, hsigned, ← SharedUrl.hashString_eq_iff hplain hu]
    constructor
    · intro hsignature
      by_cases heq : (sharedBy env uri expires disposition).hashString = u.hashString
      · exact .inl heq
      · exact .inr ⟨heq, hsignature⟩
    · rintro (heq | ⟨-, hsignature⟩)
      · rw [heq]
      · exact hsignature
  refine ⟨fun hlength => ?_, hother⟩
  have hwritten : (writtenBy env uri expires disposition).IsPlain :=
    ⟨huri, fun hmem => huid ((escapedText_initial _).subset hmem), newline_notMem_decimal _⟩
  have hfits : UrlFits env uri disposition ↔
      Uncut env.atmos.uid ∧ ∀ text, disposition = some text → Uncut text :=
    ⟨fun h => ⟨h.uid, h.disposition⟩, fun h => ⟨hlength, h.1, h.2⟩⟩
  refine ⟨_, getShareableUrlInternal_target hcurl hlength, ?_⟩
  rw [hother _ _ (readSharedUrl_query env uri expires disposition hquestion) hwritten rfl,
    sameShared_written_iff, hfits]

/-- A URL with the uid, the signature and the disposition of the one for `/docs/a.txt`. -/
def docsTarget (path expires : CStr) : CStr :=
  path ++ bytes "?uid=0123abcd%2Freader&expires=" ++ expires ++
    bytes ("&signature=v%2F7XhUQpi11%2FXUHHo9s9wz2G74o%3D" ++
      "&disposition=attachment%3B%20filename%3Da%26b%3D1%25.txt")

/-- What it asks for. -/
def docsUrl (path expires : CStr) : SharedUrl where
  path := path
  uid := bytes "0123abcd/reader"
  expires := expires
  disposition := some awkwardDisposition
  signature := bytes "v/7XhUQpi11/XUHHo9s9wz2G74o="

/-- The client's is accepted, also with its path in capitals, and rejected with a later
time. -/
theorem url_verify_iff_docs :
    (∃ own, AtmosClient.getShareableUrlInternal sharingEnv (bytes "/rest/namespace/docs/a.txt")
        1772795733 (some awkwardDisposition) = some (sharingEnv.atmos.origin ++ own) ∧
      verifyUrl (sharingEnv.atmos.sign sharingEnv.openssl) own = true) ∧
    verifyUrl (sharingEnv.atmos.sign sharingEnv.openssl)
      (docsTarget (bytes "/REST/NAMESPACE/DOCS/A.TXT") (bytes "1772795733")) = true ∧
    verifyUrl (sharingEnv.atmos.sign sharingEnv.openssl)
      (docsTarget (bytes "/rest/namespace/docs/a.txt") (bytes "1804331733")) = false := by
  have hlength : awkwardDisposition.length < 2147483648 := by decide
  obtain ⟨hown, hiff⟩ := @url_verify_iff sharingEnv Curl.standard_documented
    (bytes "/rest/namespace/docs/a.txt") (by decide) (by decide) (by decide) 1772795733
    (some awkwardDisposition)
  refine ⟨?_, ?_, ?_⟩
  · obtain ⟨own, hurl, haccepted⟩ := hown (by decide)
    refine ⟨own, hurl, haccepted.mpr (.inl ⟨by decide, .inl (by decide), ?_⟩)⟩
    intro text htext
    obtain rfl := Option.some.inj htext
    exact .inl hlength
  · have hread : readSharedUrl (docsTarget (bytes "/REST/NAMESPACE/DOCS/A.TXT")
        (bytes "1772795733")) =
        some (docsUrl (bytes "/REST/NAMESPACE/DOCS/A.TXT") (bytes "1772795733")) := by
      decide +kernel
    have hplain : (docsUrl (bytes "/REST/NAMESPACE/DOCS/A.TXT") (bytes "1772795733")).IsPlain :=
      ⟨by decide, by decide, by decide⟩
    exact (hiff _ _ hread hplain (by decide +kernel)).mpr
      (.inl ⟨by decide, by decide, by decide, rfl⟩)
  · have hread : readSharedUrl (docsTarget (bytes "/rest/namespace/docs/a.txt")
        (bytes "1804331733")) =
        some (docsUrl (bytes "/rest/namespace/docs/a.txt") (bytes "1804331733")) := by
      decide +kernel
    have hplain : (docsUrl (bytes "/rest/namespace/docs/a.txt") (bytes "1804331733")).IsPlain :=
      ⟨by decide, by decide, by decide⟩
    rw [Bool.eq_false_iff, Ne, hiff _ _ hread hplain (by decide +kernel)]
    rintro (hsame | ⟨-, hsignature⟩)
    · exact absurd hsame.expires (by decide)
    · exact absurd hsignature (by decide +kernel)

/-! ## Requests and URLs -/

/-- The date of a request without one of its own is the time it is signed at. -/
theorem date_requestToSign {env : Env} {request : RestRequest}
    (hnone : linesNamed httpHeaderDate request.headers = []) :
    env.rest.getHeaderValue (requestToSign env request).headers httpHeaderDate =
      some (AtmosUtil.getDate env.now) := by
  have hcolon : colon ∉ httpHeaderDate := by decide
  have hname : nameIs httpHeaderDate (dateLine env) = true := by
    rw [dateLine, nameIs_line hcolon]
    exact decide_eq_true rfl
  have hvalue : env.rest.headerValue (dateLine env) = AtmosUtil.getDate env.now := by
    have hline := env.rest.headerValue_line httpHeaderDate 0 _ hcolon (head_getDate env.now)
    rw [List.replicate_zero, List.nil_append] at hline
    exact hline
  obtain ⟨content, -, hheaders⟩ := requestToSign_headers env request
  rw [← env.rest.getHeaderValue_filter]
  change env.rest.getHeaderValue (linesNamed httpHeaderDate _) _ = _
  rw [hheaders, linesNamed_append, linesNamed_append, hnone, List.nil_append, linesNamed,
    List.filter_cons_of_pos hname, List.cons_append, RestClient.getHeaderValue_cons, if_pos hname,
    hvalue]

/-- The fourth line of a dated request's string to sign is longer than a time in a URL. -/
theorem hashString_ne {rest : RestClient} {r : RestRequest} {t : Tm} {u : SharedUrl}
    (hr : IsPlainRequest r)
    (hdate : rest.getHeaderValue r.headers httpHeaderDate = some (AtmosUtil.getDate t))
    (hpath : newline ∉ u.path) (huid : newline ∉ u.uid) (hexpires : u.expires.length < 29) :
    AtmosClient.canonicalizeRequest rest r ≠ some u.hashString := by
  have hlength := length_getDate t
  have hfields := newline_notMem_signedFields rest hr
  rw [signedFields, hdate, Option.getD_some] at hfields
  rw [canonicalizeRequest_fields rest hr.colons, signedFields, hdate, Option.getD_some, Ne,
    Option.some_inj]
  intro heq
  -- the three lines of the URL stand against the method, the type and the range
  have hnewline : newline ∉ AtmosUtil.getDate t := hfields _ (by simp)
  have hthree : ∀ field ∈ [r.method.verb,
      (rest.getHeaderValue r.headers httpHeaderContentType).getD [],
      (AtmosClient.rangeValue rest r.headers).getD []], newline ∉ field :=
    fun field hfield => hfields field (List.mem_append_left _ hfield)
  have hcount : [r.method.verb, (rest.getHeaderValue r.headers httpHeaderContentType).getD [],
      (AtmosClient.rangeValue rest r.headers).getD []].length = u.signedFields.length := rfl
  obtain ⟨-, hend⟩ := foldr_sep_inj hcount hthree
    (SharedUrl.newline_notMem_signedFields hpath huid) heq
  rw [SharedUrl.signedEnd] at hend
  rcases List.append_eq_append_iff.mp hend with ⟨tail, hlong, -⟩ | ⟨tail, hshort, htail⟩
  · rw [hlong, List.length_append] at hexpires
    omega
  · cases hdisposition : u.disposition with
    | none =>
        rw [hdisposition, Option.elim_none] at htail
        exact absurd htail.symm (by simp)
    | some disposition =>
        rw [hdisposition, Option.elim_some] at htail
        cases tail with
        | nil =>
            rw [hshort, List.append_nil] at hlength
            omega
        | cons b tail =>
            obtain ⟨hb, -⟩ := List.cons.inj htail
            rw [hshort, ← hb] at hnewline
            exact hnewline (List.mem_append_right _ (List.mem_cons_self ..))

/-- **The signature of a request is good for no URL.**  Whatever an operation sends, a URL
with the signature on it is accepted only where the strings to sign collide. -/
theorem request_signature_apart {env : Env} {op : Operation} {call : Call}
    {response : AtmosResponse} {x : Exchange} {sent : RestRequest}
    (hcall : op.call env = some call) (h : call.execute env response = some (.next x))
    (hsent : Event.sent sent ∈ x.trace)
    (hnone : ∀ line ∈ call.request.parent.headers, isSignature line = false)
    (hdate : linesNamed httpHeaderDate call.request.parent.headers = [])
    (hplain : IsPlainRequest sent) :
    ∃ hashString, signatures sent = [signatureText (env.atmos.sign env.openssl hashString)] ∧
      ∀ target u, readSharedUrl target = some u → newline ∉ u.path → newline ∉ u.uid →
        u.expires.length < 29 → u.signature = env.atmos.sign env.openssl hashString →
        (verifyUrl (env.atmos.sign env.openssl) target = true ↔
          Collide (env.atmos.sign env.openssl) hashString u.hashString) := by
  obtain ⟨request, own, hashString, hheaders, hnames, hwithout, hhash, hsignatures⟩ :=
    sent_signed hcall h hsent hnone
  have hdistinct : ∀ name ∈ filterHeaderNames, colon ∉ name ∧
      ByteText.lowercase name ≠ ByteText.lowercase httpHeaderDate := by decide
  have hnoDate : linesNamed httpHeaderDate request.headers = [] := by
    rw [hheaders, linesNamed_append, hdate,
      linesNamed_map_line fun header hheader => hdistinct _ (hnames header hheader)]
    rfl
  have hdated := @date_requestToSign env request hnoDate
  rw [← hwithout] at hdated
  refine ⟨hashString, hsignatures, ?_⟩
  intro target u hread hpath huid hexpires hcarries
  have hne := hashString_ne hplain.dropSignature hdated hpath huid hexpires
  rw [hhash, Ne, Option.some_inj] at hne
  rw [verifyUrl_of_read hread, hcarries]
  exact ⟨fun hsignature => ⟨hne, hsignature⟩, And.right⟩

/-- The signature of a listing's first page is the one of no other URL than one whose string
to sign collides. -/
theorem request_signature_apart_page :
    ∃ hashString, signatures pageSent =
        [signatureText (firstPage.env.atmos.sign firstPage.env.openssl hashString)] ∧
      ∀ target u, readSharedUrl target = some u → newline ∉ u.path → newline ∉ u.uid →
        u.expires.length < 29 →
        u.signature = firstPage.env.atmos.sign firstPage.env.openssl hashString →
        (verifyUrl (firstPage.env.atmos.sign firstPage.env.openssl) target = true ↔
          Collide (firstPage.env.atmos.sign firstPage.env.openssl) hashString u.hashString) := by
  have hsent : Event.sent pageSent ∈ firstPageSent.trace :=
    List.mem_append_right _ (List.mem_cons_of_mem _ (List.mem_singleton_self _))
  have hcall : (Operation.listDirectory (firstPage.prepare docsRequest)).call firstPage.env =
      some (AtmosClient.listDirectory (firstPage.prepare docsRequest)) := rfl
  have hnone : ∀ line ∈ (firstPage.prepare docsRequest).parent.headers,
      isSignature line = false := fun line hline => absurd hline List.not_mem_nil
  have hplain : IsPlainRequest pageSent :=
    ⟨by decide +kernel, by decide +kernel, by decide +kernel⟩
  exact request_signature_apart hcall firstPage_execute hsent hnone rfl hplain

/-- **The signature of a URL is good for no request.**  A request that is dated as the client
does it and carries the signature of a URL is accepted only where the strings to sign
collide. -/
theorem url_signature_apart {env : Env} {uri : CStr} (huri : newline ∉ uri)
    (huid : newline ∉ env.atmos.uid) (expires : Int64) (disposition : Option CStr)
    {r : RestRequest} {t : Tm} (hr : IsPlainRequest r)
    (hdate : env.rest.getHeaderValue (withoutSignature r).headers httpHeaderDate =
      some (AtmosUtil.getDate t))
    (hcarries : signatures r =
      [signatureText (sharedBy env uri expires disposition).signature]) :
    verify env.rest (env.atmos.sign env.openssl) r = true ↔
      ∃ hashString,
        AtmosClient.canonicalizeRequest env.rest (withoutSignature r) = some hashString ∧
        Collide (signatureText ∘ env.atmos.sign env.openssl)
          (env.atmos.shareableHashString uri (decimal expires.toInt) disposition) hashString := by
  have hexpires : (sharedBy env uri expires disposition).expires.length < 29 :=
    Nat.lt_of_le_of_lt (length_decimal_int64 expires) (by decide)
  have hne := hashString_ne hr.dropSignature hdate huri huid hexpires
  rw [verify_eq_true, hcarries]
  constructor
  · intro ⟨hashString, hhash, hsignature⟩
    refine ⟨hashString, hhash, ?_, List.singleton_inj.mp hsignature⟩
    rintro rfl
    rw [hashString_sharedBy] at hne
    exact hne hhash
  · rintro ⟨hashString, hhash, -, hsignature⟩
    exact ⟨hashString, hhash, congrArg (fun text => [text]) hsignature⟩

/-- A request for the file that is shared, with the signature of its URL. -/
def sharedSent : RestRequest where
  uri := bytes "/rest/namespace/docs/a.txt"
  method := .get
  headers := [bytes "Date:Fri, 06 Mar 2026 09:15:30 GMT", bytes "x-emc-uid:0123abcd/reader",
    bytes "x-emc-signature:v/7XhUQpi11/XUHHo9s9wz2G74o="]
  requestBody := none

/-- It is rejected. -/
theorem url_signature_apart_docs :
    verify sharingEnv.rest (sharingEnv.atmos.sign sharingEnv.openssl) sharedSent = false := by
  have hplain : IsPlainRequest sharedSent := ⟨by decide, by decide, by decide⟩
  have hdate : sharingEnv.rest.getHeaderValue (withoutSignature sharedSent).headers
      httpHeaderDate = some (AtmosUtil.getDate readerTime) := by
    decide +kernel
  have hcarries : signatures sharedSent = [signatureText (sharedBy sharingEnv
      (bytes "/rest/namespace/docs/a.txt") 1772795733 (some awkwardDisposition)).signature] := by
    decide +kernel
  have huri : newline ∉ bytes "/rest/namespace/docs/a.txt" := by decide
  have huid : newline ∉ sharingEnv.atmos.uid := by decide
  rw [Bool.eq_false_iff, Ne, url_signature_apart huri huid 1772795733 (some awkwardDisposition)
    hplain hdate hcarries]
  rintro ⟨hashString, hhash, -, hsignature⟩
  have htext : some hashString = some (bytes ("GET


Fri, 06 Mar 2026 09:15:30 GMT
" ++
      "/rest/namespace/docs/a.txt
x-emc-uid:0123abcd/reader")) :=
    hhash.symm.trans (by decide +kernel)
  rw [Option.some.inj htext] at hsignature
  exact absurd hsignature (by decide +kernel)

end Atmos
