import Atmos.CanonicalRequest

/-!
# What a string to sign pins down

A string to sign is read back line by line: none of its fields can contain a
newline, the five lines before the headers are always present, possibly
empty, and a signed line is never empty.  Two requests with the same string
therefore agree on everything that is signed.

* `newline_notMem_signedHead` fields — `newline_notMem_getHeaderValue` and its
  companions;
* `signedLines_ne_nil` — a signed line starts with `x-emc`;
* `canonicalizeRequest_injective` — the decoding argument.
-/

namespace Atmos

open ByteText

theorem newline_notMem_verb (m : HttpMethod) : newline ∉ m.verb := by
  cases m <;> decide

/-- The verbs are pairwise different. -/
theorem verb_injective : Function.Injective HttpMethod.verb := by
  intro m m' h
  cases m <;> cases m' <;> first | rfl | exact absurd h (by decide)

section Fields

variable (rest : RestClient) {headers : List CStr}

/-- A header value of newline-free lines is newline-free; an absent one is
empty. -/
theorem newline_notMem_getHeaderValue (hcolon : ∀ line ∈ headers, colon ∈ line)
    (hlines : ∀ line ∈ headers, newline ∉ line) (name : CStr) :
    newline ∉ (rest.getHeaderValue headers name).getD [] := by
  intro hmem
  cases hvalue : rest.getHeaderValue headers name with
  | none => simp [hvalue] at hmem
  | some value =>
      obtain ⟨line, hline, hsuffix⟩ := rest.getHeaderValue_mem hcolon hvalue
      rw [hvalue, Option.getD_some] at hmem
      exact hlines line hline (hsuffix.subset hmem)

theorem newline_notMem_rangeValue (hcolon : ∀ line ∈ headers, colon ∈ line)
    (hlines : ∀ line ∈ headers, newline ∉ line) :
    newline ∉ (AtmosClient.rangeValue rest headers).getD [] := by
  have hrange := newline_notMem_getHeaderValue rest hcolon hlines httpHeaderRange
  rw [AtmosClient.rangeValue]
  split
  · rename_i value hvalue
    rw [hvalue] at hrange
    exact hrange
  · exact newline_notMem_getHeaderValue rest hcolon hlines httpHeaderContentRange

/-- A signed line comes from a header line and starts with the marker. -/
theorem mem_normalisedEmcLines {line : CStr} (h : line ∈ normalisedEmcLines headers) :
    emcPrefix <+: line ∧
      ∃ source ∈ headers, line.Sublist (lowerName source) := by
  obtain ⟨hmem, hemc⟩ := List.mem_filter.mp h
  obtain ⟨source, hsource, hline⟩ := List.mem_filterMap.mp hmem
  refine ⟨List.isPrefixOf_iff_prefix.mp hemc, source, hsource, ?_⟩
  rw [canonicalLine_eq] at hline
  split at hline
  · cases hline
    exact squeeze_sublist _ _
  · cases hline

/-- A signed line is not empty and newline-free. -/
theorem signedLines_line (hlines : ∀ line ∈ headers, newline ∉ line) :
    ∀ line ∈ signedLines headers, line ≠ [] ∧ newline ∉ line := by
  intro line hmem
  have hline := (sortTexts_perm _).mem_iff.mp hmem
  obtain ⟨hemc, source, hsource, hsub⟩ := mem_normalisedEmcLines hline
  constructor
  · rintro rfl
    have hnil : emcPrefix = [] := List.prefix_nil.mp hemc
    exact absurd hnil (by decide)
  · intro hnewline
    exact hlines source hsource (newline_mem_lowerName.mp (hsub.subset hnewline))

end Fields

/-- **Canonical-string injectivity.**  Two requests with newline-free URIs and
header lines that have the same string to sign have the same method, the same
header values on the three value lines, the same lower-cased URI and, up to
order, the same normalised `x-emc` lines. -/
theorem canonicalizeRequest_injective (rest : RestClient)
    {request request' : RestRequest} {hashString : CStr}
    (huri : newline ∉ request.uri)
    (hlines : ∀ line ∈ request.headers, newline ∉ line)
    (huri' : newline ∉ request'.uri)
    (hlines' : ∀ line ∈ request'.headers, newline ∉ line)
    (h : AtmosClient.canonicalizeRequest rest request = some hashString)
    (h' : AtmosClient.canonicalizeRequest rest request' = some hashString) :
    request.method = request'.method ∧
    (rest.getHeaderValue request.headers httpHeaderContentType).getD [] =
      (rest.getHeaderValue request'.headers httpHeaderContentType).getD [] ∧
    (AtmosClient.rangeValue rest request.headers).getD [] =
      (AtmosClient.rangeValue rest request'.headers).getD [] ∧
    (rest.getHeaderValue request.headers httpHeaderDate).getD [] =
      (rest.getHeaderValue request'.headers httpHeaderDate).getD [] ∧
    AtmosUtil.lowercase request.uri = AtmosUtil.lowercase request'.uri ∧
    (normalisedEmcLines request.headers).Perm (normalisedEmcLines request'.headers) := by
  have hcolon := (canonicalizeRequest_isSome rest request).mp (by rw [h]; rfl)
  have hcolon' := (canonicalizeRequest_isSome rest request').mp (by rw [h']; rfl)
  rw [canonicalizeRequest_eq rest hcolon] at h
  rw [canonicalizeRequest_eq rest hcolon', ← h] at h'
  have heq := (Option.some.inj h').symm
  simp only [signedHead, List.append_assoc, List.cons_append, List.nil_append] at heq
  -- one field after the other ends at the first newline
  obtain ⟨hverb, heq⟩ :=
    append_sep_inj (newline_notMem_verb _) (newline_notMem_verb _) heq
  obtain ⟨htype, heq⟩ := append_sep_inj
    (newline_notMem_getHeaderValue rest hcolon hlines _)
    (newline_notMem_getHeaderValue rest hcolon' hlines' _) heq
  obtain ⟨hrange, heq⟩ := append_sep_inj
    (newline_notMem_rangeValue rest hcolon hlines)
    (newline_notMem_rangeValue rest hcolon' hlines') heq
  obtain ⟨hdate, heq⟩ := append_sep_inj
    (newline_notMem_getHeaderValue rest hcolon hlines _)
    (newline_notMem_getHeaderValue rest hcolon' hlines' _) heq
  obtain ⟨hlower, heq⟩ := append_sep_inj
    (fun hm => huri (newline_mem_lowercase.mp hm))
    (fun hm => huri' (newline_mem_lowercase.mp hm)) heq
  have hsigned : signedLines request.headers = signedLines request'.headers :=
    intercalate_inj (signedLines_line hlines) (signedLines_line hlines') heq
  have hperm : (normalisedEmcLines request.headers).Perm
      (normalisedEmcLines request'.headers) := by
    have hsort := (sortTexts_perm (normalisedEmcLines request.headers)).symm
    have hsort' := sortTexts_perm (normalisedEmcLines request'.headers)
    rw [signedLines, signedLines] at hsigned
    exact hsort.trans (hsigned ▸ hsort')
  exact ⟨verb_injective hverb, htype, hrange, hdate, hlower, hperm⟩

private def firstSpelling : RestRequest :=
  { uri := bytes "/Rest"
    method := .get
    headers := [bytes "Date: d", bytes "X-Emc-Uid:  a", bytes "x-emc-b: 1"]
    requestBody := none }

private def secondSpelling : RestRequest :=
  { uri := bytes "/rest"
    method := .get
    headers := [bytes "x-emc-b: 1", bytes "x-emc-uid:a ", bytes "Date: d"]
    requestBody := none }

/-- Two spellings of one request sign the same string and agree. -/
theorem canonicalizeRequest_injective_spellings :
    (normalisedEmcLines firstSpelling.headers).Perm
      (normalisedEmcLines secondSpelling.headers) := by
  have h : AtmosClient.canonicalizeRequest RestClient.plain firstSpelling =
      some (bytes "GET\n\n\nd\n/rest\nx-emc-b:1\nx-emc-uid:a") := by decide
  have h' : AtmosClient.canonicalizeRequest RestClient.plain secondSpelling =
      some (bytes "GET\n\n\nd\n/rest\nx-emc-b:1\nx-emc-uid:a") := by decide
  obtain ⟨-, -, -, -, -, hperm⟩ := canonicalizeRequest_injective RestClient.plain
    (by decide) (by decide) (by decide) (by decide) h h'
  exact hperm

end Atmos
