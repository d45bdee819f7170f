import Atmos.CanonicalInjectivity
import Atmos.RequestReissue

/-!
# Verifying a signature

What the signature of a request is for.  Whoever knows the secret takes the signature off
a request, makes the string to sign of the rest and compares: `verify` does so with the
functions of the client.

* `Presentation.dropSignature` — a change of presentation is one of the rest, or only of the
  signature;
* `sent_verifies` — what an operation sends is accepted, however it is presented;
* `verify_iff` — with its signature, nothing else is.
-/

namespace Atmos

open ByteText FilterChain

/-! ## Taking a request apart -/

/-- Whether a normalised line is a signature. -/
def isSignatureText (text : CStr) : Bool := (atmosHeaderSignature ++ [colon]).isPrefixOf text

/-- Whether a header line is a signature. -/
def isSignature (line : CStr) : Bool := (canonicalLine line).any isSignatureText

/-- A request without its signature. -/
def withoutSignature (r : RestRequest) : RestRequest :=
  { r with headers := r.headers.filter (!isSignature ·) }

/-- The signatures of a request, normalised. -/
def signatures (r : RestRequest) : List CStr :=
  (normalisedEmcLines r.headers).filter isSignatureText

/-- The normalised line of a signature. -/
def signatureText (signature : CStr) : CStr :=
  atmosHeaderSignature ++ colon :: squeeze .gap signature

/-- Whether a request carries the signature of what else it is, and no other one. -/
def verify (rest : RestClient) (sign : CStr → CStr) (r : RestRequest) : Bool :=
  (AtmosClient.canonicalizeRequest rest (withoutSignature r)).any fun hashString =>
    signatures r = [signatureText (sign hashString)]

theorem verify_eq_true {rest : RestClient} {sign : CStr → CStr} {r : RestRequest} :
    verify rest sign r = true ↔
      ∃ hashString, AtmosClient.canonicalizeRequest rest (withoutSignature r) = some hashString ∧
        signatures r = [signatureText (sign hashString)] := by
  rw [verify]
  cases AtmosClient.canonicalizeRequest rest (withoutSignature r) with
  | none => simp
  | some hashString => simp

theorem isEmcName_signature : IsEmcName atmosHeaderSignature where
  word := by decide
  lower := by decide
  emc := by decide

theorem isEmcHeader_of_isSignature {line : CStr} (h : isSignature line = true) :
    IsEmcHeader line := by
  rw [isSignature, canonicalLine_eq] at h
  split at h
  · have hprefix : atmosHeaderSignature ++ [colon] <+: squeeze .name (lowerName line) :=
      List.isPrefixOf_iff_prefix.mp h
    rw [← isEmc_canonicalLine, List.isPrefixOf_iff_prefix]
    exact (isEmcName_signature.emc.trans (List.prefix_append _ _)).trans hprefix
  · cases h

/-- Among the `x-emc` headers the name decides. -/
theorem isSignature_emc {name : CStr} (hname : IsEmcName name) (value : CStr) :
    isSignature (name ++ colon :: value) = decide (name = atmosHeaderSignature) := by
  rw [isSignature, canonicalLine_emc hname, Option.any_some, isSignatureText]
  by_cases heq : name = atmosHeaderSignature
  · subst heq
    rw [decide_eq_true rfl, List.isPrefixOf_iff_prefix]
    exact ⟨squeeze .gap value, by rw [List.append_assoc]; rfl⟩
  · rw [decide_eq_false heq, Bool.eq_false_iff]
    intro hprefix
    obtain ⟨tail, htail⟩ := List.isPrefixOf_iff_prefix.mp hprefix
    rw [List.append_assoc] at htail
    exact heq (append_sep_inj isEmcName_signature.colon_notMem hname.colon_notMem htail).1.symm

theorem isSignature_known {h : Header} (hname : IsKnownName h.name)
    (hne : h.name ≠ atmosHeaderSignature) : isSignature h.line = false := by
  rw [Header.line, headerLine_eq]
  by_cases hemc : emcPrefix.isPrefixOf (ByteText.lowercase h.name) = true
  · rw [isSignature_emc (hname.emc hemc), decide_eq_false hne]
  · rw [Bool.eq_false_iff]
    intro hsignature
    have hline := isEmcHeader_of_isSignature hsignature
    rw [isEmcHeader_line, ← List.isPrefixOf_iff_prefix] at hline
    exact hemc hline

/-! ## Changes of presentation -/

theorem filter_withoutSignature {before after : List CStr} {line : CStr}
    (h : isSignature line = false) :
    (before ++ line :: after).filter (!isSignature ·) =
      before.filter (!isSignature ·) ++ line :: after.filter (!isSignature ·) := by
  rw [List.filter_append, List.filter_cons_of_pos (by simp [h])]

theorem filter_signature {before after : List CStr} {line : CStr} (h : isSignature line = true) :
    (before ++ line :: after).filter (!isSignature ·) =
      (before ++ after).filter (!isSignature ·) := by
  rw [List.filter_append, List.filter_cons_of_neg (by simp [h]), List.filter_append]

/-- Another spelling of a line is a signature if the line is one. -/
theorem withoutSignature_respelled {r : RestRequest} {before after : List CStr}
    {line line' : CStr}
    (hheaders : r.headers = before ++ line :: after)
    (hsame : canonicalLine line = canonicalLine line')
    (hstep : ∀ {s : RestRequest} {before after : List CStr},
      s.headers = before ++ line :: after →
        Presentation s { s with headers := before ++ line' :: after }) :
    withoutSignature r = withoutSignature { r with headers := before ++ line' :: after } ∨
      Presentation (withoutSignature r)
        (withoutSignature { r with headers := before ++ line' :: after }) := by
  have hsignature : isSignature line' = isSignature line := by
    rw [isSignature, isSignature, hsame]
  cases hline : isSignature line with
  | true =>
      left
      rw [withoutSignature, withoutSignature, hheaders, filter_signature hline,
        filter_signature (hsignature.trans hline)]
  | false =>
      right
      have hfilter : (withoutSignature r).headers =
          before.filter (!isSignature ·) ++ line :: after.filter (!isSignature ·) := by
        rw [withoutSignature, hheaders, filter_withoutSignature hline]
      have hchange := hstep hfilter
      rw [← filter_withoutSignature (hsignature.trans hline)] at hchange
      exact hchange

/-- **A change of presentation** is one of the rest of the request, or of nothing but its
signature. -/
theorem Presentation.dropSignature {r r' : RestRequest} (h : Presentation r r') :
    withoutSignature r = withoutSignature r' ∨
      Presentation (withoutSignature r) (withoutSignature r') := by
  cases h with
  | permute hperm => exact .inr (.permute (hperm.filter _))
  | @nameCase before after name name' value hheaders hname hemc hcase =>
      have hname' : colon ∉ name' := by
        have hlower : colon ∉ ByteText.lowercase name := by
          simpa [ByteText.lowercase] using hname
        rw [hcase] at hlower
        simpa [ByteText.lowercase] using hlower
      have hsame : canonicalLine (name ++ colon :: value) =
          canonicalLine (name' ++ colon :: value) := by
        rw [canonicalLine_of_mem (by simp), canonicalLine_of_mem (by simp),
          lowerName_line hname, lowerName_line hname', hcase]
      exact withoutSignature_respelled hheaders hsame fun h => .nameCase h hname hemc hcase
  | spaces hheaders hemc hedit =>
      exact withoutSignature_respelled hheaders hedit.canonicalLine_eq fun h => .spaces h hemc hedit
  | @addOther before after line hheaders hcolon hemc hother =>
      have hline : isSignature line = false := by
        rw [Bool.eq_false_iff]
        exact fun h => hemc (isEmcHeader_of_isSignature h)
      right
      have hfilter : (withoutSignature r).headers =
          before.filter (!isSignature ·) ++ after.filter (!isSignature ·) := by
        rw [withoutSignature, hheaders, List.filter_append]
      have hchange := Presentation.addOther hfilter hcolon hemc hother
      rw [← filter_withoutSignature hline] at hchange
      exact hchange
  | @removeOther before after line hheaders hemc hother =>
      have hline : isSignature line = false := by
        rw [Bool.eq_false_iff]
        exact fun h => hemc (isEmcHeader_of_isSignature h)
      right
      have hfilter : (withoutSignature r).headers =
          before.filter (!isSignature ·) ++ line :: after.filter (!isSignature ·) := by
        rw [withoutSignature, hheaders, filter_withoutSignature hline]
      have hchange := Presentation.removeOther hfilter hemc hother
      rw [← List.filter_append] at hchange
      exact hchange
  | uriCase hcase => exact .inr (.uriCase hcase)

theorem Presentation.signatures_perm {r r' : RestRequest} (h : Presentation r r') :
    (signatures r).Perm (signatures r') := by
  obtain ⟨-, -, hsame⟩ := h.sameContent
  exact hsame.emcLines.filter isSignatureText

/-- Changes of presentation do not change the answer. -/
theorem verify_presentation (rest : RestClient) (sign : CStr → CStr) {r r' : RestRequest}
    (hsignable : Signable r) (h : Relation.ReflTransGen Presentation r r')
    (hverify : verify rest sign r = true) : verify rest sign r' = true := by
  have hrun : Signable (withoutSignature r') ∧
      AtmosClient.canonicalizeRequest rest (withoutSignature r) =
        AtmosClient.canonicalizeRequest rest (withoutSignature r') ∧
      (signatures r).Perm (signatures r') := by
    induction h with
    | refl =>
        refine ⟨⟨?_, ?_⟩, rfl, List.Perm.refl _⟩
        · exact fun line hline => hsignable.colons line (List.mem_of_mem_filter hline)
        · intro name hname
          have hsub : ((withoutSignature r).headers.filter (nameIs name)).Sublist
              (r.headers.filter (nameIs name)) := List.filter_sublist.filter _
          exact hsub.length_le.trans (hsignable.once name hname)
    | tail _ hstep ih =>
        obtain ⟨hs, hsame, hperm⟩ := ih
        have hperm' := hperm.trans hstep.signatures_perm
        rcases hstep.dropSignature with heq | hchange
        · exact ⟨heq ▸ hs, heq ▸ hsame, hperm'⟩
        · exact ⟨hchange.signable hs, hsame.trans (canonicalizeRequest_step rest hchange hs),
            hperm'⟩
  obtain ⟨-, hsame, hperm⟩ := hrun
  obtain ⟨hashString, hhash, hsignatures⟩ := verify_eq_true.mp hverify
  refine verify_eq_true.mpr ⟨hashString, hsame ▸ hhash, ?_⟩
  rw [hsignatures] at hperm
  exact (List.singleton_perm.mp hperm).symm

/-! ## What an operation sends -/

theorem isSignature_signatureLine (env : Env) (hashString : CStr) :
    isSignature (signatureLine env hashString) = true := by
  rw [signatureLine, isSignature_emc isEmcName_signature]
  exact decide_eq_true rfl

/-- A call signs a request without a signature. -/
theorem isSignature_requestToSign {env : Env} {request : RestRequest}
    (h : ∀ line ∈ request.headers, isSignature line = false) :
    ∀ line ∈ (requestToSign env request).headers, isSignature line = false := by
  obtain ⟨content, hcontent, hheaders⟩ := requestToSign_headers env request
  have hother : ∀ line, ¬ IsEmcHeader line → isSignature line = false := by
    intro line hemc
    rw [Bool.eq_false_iff]
    exact fun hline => hemc (isEmcHeader_of_isSignature hline)
  intro line hline
  rw [hheaders, List.mem_append, List.mem_append, List.mem_pair] at hline
  rcases hline with (hline | rfl | rfl) | hline
  · exact h line hline
  · apply hother
    rw [dateLine, isEmcHeader_line]
    decide
  · rw [uidLine, isSignature_emc isEmcName_uid]
    decide
  · exact hother line (hcontent line hline).2

/-- What an operation sends is what it signed, the call's headers and those of its filters,
and the signature of that. -/
theorem sent_signed {env : Env} {op : Operation} {call : Call} {response : AtmosResponse}
    {x : Exchange} {sent : RestRequest} (hcall : op.call env = some call)
    (h : call.execute env response = some (.next x)) (hsent : Event.sent sent ∈ x.trace)
    (hnone : ∀ line ∈ call.request.parent.headers, isSignature line = false) :
    ∃ (request : RestRequest) (own : List Header) (hashString : CStr),
      request.headers = call.request.parent.headers ++ own.map Header.line ∧
      (∀ header ∈ own, header.name ∈ filterHeaderNames) ∧
      withoutSignature sent = requestToSign env request ∧
      AtmosClient.canonicalizeRequest env.rest (withoutSignature sent) = some hashString ∧
      signatures sent = [signatureText (env.atmos.sign env.openssl hashString)] := by
  obtain ⟨y, hashString, ⟨own, hnames, happends⟩, hhash, rfl⟩ :=
    execute_signed (operation_ownFilters hcall) h
  obtain rfl := sent_eq_of_mem happends.trace hsent
  have hnotSignature : atmosHeaderSignature ∉ filterHeaderNames := by decide
  have hheaders : y.request.parent.headers =
      call.request.parent.headers ++ own.map Header.line := happends.headers
  have hown : ∀ line ∈ y.request.parent.headers, isSignature line = false := by
    rw [hheaders]
    intro line hline
    rcases List.mem_append.mp hline with hline | hline
    · exact hnone line hline
    · obtain ⟨header, hheader, rfl⟩ := List.mem_map.mp hline
      have hname := hnames header hheader
      exact isSignature_known (isKnownName (List.mem_cons_of_mem _ hname))
        fun heq => hnotSignature (heq ▸ hname)
  have hsigned := @isSignature_requestToSign env y.request.parent hown
  have hall : (requestToSign env y.request.parent).headers.filter (!isSignature ·) =
      (requestToSign env y.request.parent).headers := by
    apply List.filter_eq_self.mpr
    intro line hline
    rw [hsigned line hline]
    rfl
  have hwithout : withoutSignature ((requestToSign env y.request.parent).addHeader
      (signatureLine env hashString)) = requestToSign env y.request.parent := by
    rw [withoutSignature, RestRequest.addHeader_headers, List.filter_append, hall,
      List.filter_cons_of_neg (by simp [isSignature_signatureLine]), List.filter_nil,
      List.append_nil]
    rfl
  have hnil : (normalisedEmcLines (requestToSign env y.request.parent).headers).filter
      isSignatureText = [] := by
    apply List.filter_eq_nil_iff.mpr
    intro text htext hsignature
    obtain ⟨line, hline, hcanonical⟩ := List.mem_filterMap.mp (List.mem_of_mem_filter htext)
    have hnot := hsigned line hline
    rw [isSignature, hcanonical, Option.any_some, hsignature] at hnot
    cases hnot
  refine ⟨_, own, hashString, hheaders, hnames, hwithout, ?_, ?_⟩
  · rw [hwithout]
    exact hhash
  · rw [signatures, RestRequest.addHeader_headers, normalisedEmcLines_append,
      List.filter_append, hnil, signatureLine, normalisedEmcLines_emc isEmcName_signature]
    refine (List.nil_append _).trans (List.filter_cons_of_pos ?_)
    rw [isSignatureText, List.isPrefixOf_iff_prefix]
    exact ⟨_, List.append_assoc _ _ _⟩

/-- **What is sent is accepted**, after any changes of its presentation. -/
theorem sent_verifies {env : Env} {op : Operation} {call : Call} {response : AtmosResponse}
    {x : Exchange} {sent r : RestRequest} (hcall : op.call env = some call)
    (h : call.execute env response = some (.next x)) (hsent : Event.sent sent ∈ x.trace)
    (hnone : ∀ line ∈ call.request.parent.headers, isSignature line = false)
    (hsignable : Signable sent) (hchanges : Relation.ReflTransGen Presentation sent r) :
    verify env.rest (env.atmos.sign env.openssl) r = true := by
  obtain ⟨-, -, hashString, -, -, -, hhash, hsignatures⟩ := sent_signed hcall h hsent hnone
  have hverify := verify_eq_true.mpr ⟨hashString, hhash, hsignatures⟩
  exact verify_presentation env.rest _ hsignable hchanges hverify

/-- The first page of a listing, as it is sent. -/
def pageSent : RestRequest :=
  (requestToSign firstPage.env (listingStart firstPage docsRequest).request.parent).addHeader
    (signatureLine firstPage.env firstPageText)

theorem signable_pageSent : Signable pageSent where
  colons := by decide +kernel
  once := by decide +kernel

/-- It is accepted with its headers in the opposite order. -/
theorem sent_verifies_page :
    verify firstPage.env.rest (firstPage.env.atmos.sign firstPage.env.openssl)
      { pageSent with headers := pageSent.headers.reverse } = true := by
  have hsent : Event.sent pageSent ∈ firstPageSent.trace :=
    List.mem_append_right _ (List.mem_cons_of_mem _ (List.mem_singleton_self _))
  have hcall : (Operation.listDirectory (firstPage.prepare docsRequest)).call firstPage.env =
      some (AtmosClient.listDirectory (firstPage.prepare docsRequest)) := rfl
  have hnone : ∀ line ∈ (firstPage.prepare docsRequest).parent.headers,
      isSignature line = false := fun line hline => absurd hline List.not_mem_nil
  exact sent_verifies hcall firstPage_execute hsent hnone signable_pageSent
    (.single (.permute (List.reverse_perm _).symm))

/-! ## What is accepted -/

/-- The fields of the string to sign before the lines. -/
def signedFields (rest : RestClient) (r : RestRequest) : List CStr :=
  [r.method.verb, (rest.getHeaderValue r.headers httpHeaderContentType).getD [],
    (AtmosClient.rangeValue rest r.headers).getD [],
    (rest.getHeaderValue r.headers httpHeaderDate).getD [], ByteText.lowercase r.uri]

/-- Two requests agree on what is signed. -/
structure SameSigned (rest : RestClient) (r r' : RestRequest) : Prop where
  fields : signedFields rest r = signedFields rest r'
  lines : (normalisedEmcLines r.headers).Perm (normalisedEmcLines r'.headers)

theorem canonicalizeRequest_fields (rest : RestClient) {r : RestRequest}
    (hcolon : ∀ line ∈ r.headers, colon ∈ line) :
    AtmosClient.canonicalizeRequest rest r = some ((signedFields rest r).foldr
      (fun field text => field ++ newline :: text)
        ([newline].intercalate (signedLines r.headers))) := by
  rw [canonicalizeRequest_eq rest hcolon, signedHead]
  simp [signedFields]

/-- A request whose header lines have colons and no newlines, as its URI has none. -/
structure IsPlainRequest (r : RestRequest) : Prop where
  colons : ∀ line ∈ r.headers, colon ∈ line
  lines : ∀ line ∈ r.headers, newline ∉ line
  uri : newline ∉ r.uri

theorem IsPlainRequest.dropSignature {r : RestRequest} (h : IsPlainRequest r) :
    IsPlainRequest (withoutSignature r) where
  colons line hline := h.colons line (List.mem_of_mem_filter hline)
  lines line hline := h.lines line (List.mem_of_mem_filter hline)
  uri := h.uri

theorem newline_notMem_signedFields (rest : RestClient) {r : RestRequest}
    (h : IsPlainRequest r) : ∀ field ∈ signedFields rest r, newline ∉ field := by
  intro field hfield
  rw [signedFields] at hfield
  simp only [List.mem_cons, List.not_mem_nil, or_false] at hfield
  rcases hfield with rfl | rfl | rfl | rfl | rfl
  · exact newline_notMem_verb _
  · exact newline_notMem_getHeaderValue rest h.colons h.lines _
  · exact newline_notMem_rangeValue rest h.colons h.lines
  · exact newline_notMem_getHeaderValue rest h.colons h.lines _
  · exact fun hmem => h.uri (newline_mem_lowercase.mp hmem)

/-- Two requests have the same string to sign exactly when they agree on what is signed. -/
theorem canonicalizeRequest_eq_iff (rest : RestClient) {r r' : RestRequest}
    (h : IsPlainRequest r) (h' : IsPlainRequest r') :
    AtmosClient.canonicalizeRequest rest r = AtmosClient.canonicalizeRequest rest r' ↔
      SameSigned rest r r' := by
  rw [canonicalizeRequest_fields rest h.colons, canonicalizeRequest_fields rest h'.colons,
    Option.some_inj]
  constructor
  · intro heq
    have hlength : (signedFields rest r).length = (signedFields rest r').length := rfl
    obtain ⟨hfields, hjoined⟩ := foldr_sep_inj hlength (newline_notMem_signedFields rest h)
      (newline_notMem_signedFields rest h') heq
    have hsigned : signedLines r.headers = signedLines r'.headers :=
      intercalate_inj (signedLines_line h.lines) (signedLines_line h'.lines) hjoined
    refine ⟨hfields, (sortTexts_perm (normalisedEmcLines r.headers)).symm.trans ?_⟩
    exact (List.Perm.of_eq hsigned).trans (sortTexts_perm (normalisedEmcLines r'.headers))
  · intro hsame
    have hsigned : signedLines r.headers = signedLines r'.headers :=
      sortTexts_eq_of_perm hsame.lines
    rw [hsame.fields, hsigned]

/-- Two strings with one signature. -/
def Collide (sign : CStr → CStr) (s t : CStr) : Prop := s ≠ t ∧ sign s = sign t

/-- **What is accepted.**  A request that carries the signature of one that is accepted is
accepted exactly when it agrees with that one on what is signed, unless their strings to sign
have one signature. -/
theorem verify_iff {rest : RestClient} {sign : CStr → CStr} {sent r : RestRequest}
    (hsent : IsPlainRequest sent) (hr : IsPlainRequest r)
    (hverify : verify rest sign sent = true) (hcarries : signatures r = signatures sent) :
    ∃ hashString text,
      AtmosClient.canonicalizeRequest rest (withoutSignature sent) = some hashString ∧
      AtmosClient.canonicalizeRequest rest (withoutSignature r) = some text ∧
      (verify rest sign r = true ↔
        SameSigned rest (withoutSignature sent) (withoutSignature r) ∨
          Collide (signatureText ∘ sign) hashString text) := by
  obtain ⟨hashString, hhash, hsignatures⟩ := verify_eq_true.mp hverify
  obtain ⟨text, htext⟩ : ∃ text,
      AtmosClient.canonicalizeRequest rest (withoutSignature r) = some text :=
    ⟨_, canonicalizeRequest_fields rest hr.dropSignature.colons⟩
  refine ⟨hashString, text, hhash, htext, ?_⟩
  have hverified : verify rest sign r = true ↔
      signatureText (sign hashString) = signatureText (sign text) := by
    rw [verify_eq_true, hcarries, hsignatures]
    constructor
    · rintro ⟨other, hother, heq⟩
      obtain rfl := Option.some.inj (htext.symm.trans hother)
      exact List.singleton_inj.mp heq
    · exact fun heq => ⟨text, htext, congrArg (fun signature => [signature]) heq⟩
  rw [hverified, ← canonicalizeRequest_eq_iff rest hsent.dropSignature hr.dropSignature, hhash,
    htext, Option.some_inj]
  constructor
  · intro heq
    by_cases hsame : hashString = text
    · exact .inl hsame
    · exact .inr ⟨hsame, heq⟩
  · rintro (rfl | hcollide)
    · rfl
    · exact hcollide.2

/-- The signature of the first page, and one for all other texts. -/
def pageSign (text : CStr) : CStr :=
  if text = firstPageText then bytes "7PL5oxF5rdyeLEcsQj32oO8A0EY=" else []

/-- The request for the first page, for another directory. -/
def privateSent : RestRequest := { pageSent with uri := bytes "/rest/namespace/private/" }

/-- With the signature of the first page, the listing of another directory is rejected. -/
theorem verify_iff_page : verify RestClient.plain pageSign privateSent = false := by
  have hplain : IsPlainRequest pageSent :=
    ⟨by decide +kernel, by decide +kernel, by decide +kernel⟩
  have hother : IsPlainRequest privateSent := ⟨hplain.colons, hplain.lines, by decide⟩
  have hverify : verify RestClient.plain pageSign pageSent = true := by decide +kernel
  obtain ⟨hashString, text, hhash, htext, hiff⟩ := verify_iff hplain hother hverify rfl
  rw [Bool.eq_false_iff]
  intro haccepted
  rcases hiff.mp haccepted with hsame | hcollide
  · exact absurd hsame.fields (by decide +kernel)
  · have hfirst : hashString = firstPageText :=
      Option.some.inj (hhash.symm.trans (by decide +kernel))
    have hsecond : text ≠ firstPageText := by
      rintro rfl
      exact absurd htext (by decide +kernel)
    have heq := hcollide.2
    rw [Function.comp_apply, Function.comp_apply, hfirst, pageSign, pageSign, if_pos rfl,
      if_neg hsecond] at heq
    exact absurd heq (by decide +kernel)

end Atmos
