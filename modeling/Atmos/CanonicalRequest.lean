import Atmos.Constants
import Atmos.NormalizeWhitespace
import Atmos.RestClient

/-!
# The string to sign

`AtmosClient_canonicalize_request` writes the verb, four optional header
values and the lower-cased URI on a line each, and then the normalised
`x-emc` lines in sorted order.

* `canonicalizeRequest_eq` — the string is five fields, each ended by a
  newline, and the newline-joined `signedLines`;
* `canonicalizeRequest_isSome` — it exists exactly when every header line has
  a colon;
* `isEmc_canonicalLine` — a line is signed exactly when its header is an
  `x-emc` header.

Memory is assumed to be available for the growing string.
-/

namespace Atmos

open ByteText

/-- The table `methods`. -/
def HttpMethod.verb : HttpMethod → CStr
  | .post => bytes "POST"
  | .get => bytes "GET"
  | .put => bytes "PUT"
  | .delete => bytes "DELETE"
  | .head => bytes "HEAD"
  | .options => bytes "OPTIONS"

/-- The marker `x-emc` that selects the headers to sign. -/
def emcPrefix : CStr := bytes "x-emc"

/-- `AtmosUtil_lowercaseheader` and then `AtmosUtil_normalize_whitespace`. -/
def canonicalLine (line : CStr) : Option CStr :=
  (AtmosUtil.lowercaseheader line).map AtmosUtil.normalizeWhitespace

namespace AtmosClient

/-- One round of the loop over the sorted headers: the flag `firstheader` and
the string so far. -/
def signHeader : Bool × CStr → CStr → Bool × CStr
  | (firstheader, hashString), line =>
      if emcPrefix.isPrefixOf line then
        (false, (if firstheader then hashString else hashString ++ [newline]) ++ line)
      else (firstheader, hashString)

/-- The value on the range line: `Range`, or else `Content-Range`. -/
def rangeValue (rest : RestClient) (headers : List CStr) : Option CStr :=
  match rest.getHeaderValue headers httpHeaderRange with
  | some value => some value
  | none => rest.getHeaderValue headers httpHeaderContentRange

/-- The string of `AtmosClient_canonicalize_request`, from the normalised header
lines and the lower-cased URI. -/
def stringToSign (rest : RestClient) (request : RestRequest) (lines : List CStr)
    (loweruri : CStr) : CStr :=
  let emcSortedHeaders := sortTexts lines
  let header := rest.getHeaderValue request.headers
  let hashString := request.method.verb ++ [newline]
  let hashString := hashString ++ (header httpHeaderContentType).getD [] ++ [newline]
  let hashString := hashString ++ (rangeValue rest request.headers).getD [] ++ [newline]
  let hashString := hashString ++ (header httpHeaderDate).getD [] ++ [newline]
  let hashString := hashString ++ loweruri ++ [newline]
  (emcSortedHeaders.foldl signHeader (true, hashString)).2

/-- What `AtmosClient_canonicalize_request` returns for a request whose texts its
indices reach the end of; with these indices it is
`Indexed.canonicalizeRequest`. -/
def canonicalizeRequest (rest : RestClient) (request : RestRequest) : Option CStr := do
  let lines ← request.headers.mapM canonicalLine
  some (stringToSign rest request lines (AtmosUtil.lowercase request.uri))

end AtmosClient

/-! ## The fields of the string -/

/-- The normalised `x-emc` lines, in the order of the headers. -/
def normalisedEmcLines (headers : List CStr) : List CStr :=
  (headers.filterMap canonicalLine).filter (emcPrefix.isPrefixOf ·)

/-- The lines that are signed, in the order in which they are signed. -/
def signedLines (headers : List CStr) : List CStr := sortTexts (normalisedEmcLines headers)

/-- The five lines before the headers. -/
def signedHead (rest : RestClient) (request : RestRequest) : CStr :=
  request.method.verb ++ newline ::
  ((rest.getHeaderValue request.headers httpHeaderContentType).getD [] ++ newline ::
  ((AtmosClient.rangeValue rest request.headers).getD [] ++ newline ::
  ((rest.getHeaderValue request.headers httpHeaderDate).getD [] ++ newline ::
  (ByteText.lowercase request.uri ++ [newline]))))

theorem canonicalLine_eq (line : CStr) :
    canonicalLine line =
      if colon ∈ line then some (squeeze .name (lowerName line)) else none := by
  rw [canonicalLine, lowercaseheader_eq]
  split
  · rw [Option.map_some, normalizeWhitespace_eq]
  · rfl

theorem canonicalLine_of_mem {line : CStr} (h : colon ∈ line) :
    canonicalLine line = some (squeeze .name (lowerName line)) := by
  rw [canonicalLine_eq, if_pos h]

/-- Behind the first line the loop writes a newline before every further one. -/
theorem foldl_signHeader_false (lines : List CStr) (hashString : CStr) :
    (lines.foldl AtmosClient.signHeader (false, hashString)).2 =
      (lines.filter (emcPrefix.isPrefixOf ·)).foldl (fun text line => text ++ [newline] ++ line)
        hashString := by
  induction lines generalizing hashString with
  | nil => rfl
  | cons line lines ih =>
      rw [List.foldl_cons, AtmosClient.signHeader]
      by_cases hemc : emcPrefix.isPrefixOf line
      · rw [if_pos hemc, List.filter_cons_of_pos hemc, List.foldl_cons]
        exact ih _
      · rw [if_neg hemc, List.filter_cons_of_neg hemc]
        exact ih hashString

/-- The loop joins the `x-emc` lines with newlines. -/
theorem foldl_signHeader (lines : List CStr) (hashString : CStr) :
    (lines.foldl AtmosClient.signHeader (true, hashString)).2 =
      hashString ++ [newline].intercalate (lines.filter (emcPrefix.isPrefixOf ·)) := by
  induction lines with
  | nil => simp
  | cons line lines ih =>
      rw [List.foldl_cons, AtmosClient.signHeader]
      by_cases hemc : emcPrefix.isPrefixOf line
      · rw [if_pos hemc, if_pos rfl, List.filter_cons_of_pos hemc, foldl_signHeader_false,
          foldl_glue, ← append_intercalate]
      · rw [if_neg hemc, List.filter_cons_of_neg hemc]
        exact ih

theorem mapM_canonicalLine {headers : List CStr} (h : ∀ line ∈ headers, colon ∈ line) :
    headers.mapM canonicalLine = some (headers.filterMap canonicalLine) := by
  induction headers with
  | nil => rfl
  | cons line headers ih =>
      have hline := canonicalLine_of_mem (h line (by simp))
      have htail := ih fun l hl => h l (List.mem_cons_of_mem _ hl)
      rw [List.mapM_cons, List.filterMap_cons, hline, htail]
      rfl

theorem mapM_canonicalLine_eq_none {headers : List CStr}
    (h : ∃ line ∈ headers, colon ∉ line) : headers.mapM canonicalLine = none := by
  obtain ⟨line, hmem, hcolon⟩ := h
  induction headers with
  | nil => cases hmem
  | cons l headers ih =>
      rw [List.mapM_cons]
      rcases List.mem_cons.mp hmem with rfl | hmem
      · rw [canonicalLine_eq, if_neg hcolon]
        rfl
      · rw [ih hmem]
        cases canonicalLine l <;> rfl

/-- **The fields of the string to sign.** -/
theorem canonicalizeRequest_eq (rest : RestClient) {request : RestRequest}
    (hcolon : ∀ line ∈ request.headers, colon ∈ line) :
    AtmosClient.canonicalizeRequest rest request =
      some (signedHead rest request ++
        [newline].intercalate (signedLines request.headers)) := by
  rw [AtmosClient.canonicalizeRequest, mapM_canonicalLine hcolon, Option.bind_eq_bind,
    Option.bind_some, AtmosClient.stringToSign]
  simp only [foldl_signHeader, filter_sortTexts]
  simp [signedHead, signedLines, normalisedEmcLines, AtmosUtil.lowercase]

/-- The string exists exactly when every header line has a colon. -/
theorem canonicalizeRequest_isSome (rest : RestClient) (request : RestRequest) :
    (AtmosClient.canonicalizeRequest rest request).isSome ↔
      ∀ line ∈ request.headers, colon ∈ line := by
  constructor
  · intro h
    by_contra hnot
    push Not at hnot
    rw [AtmosClient.canonicalizeRequest, mapM_canonicalLine_eq_none hnot] at h
    cases h
  · intro h
    rw [canonicalizeRequest_eq rest h]
    rfl

/-! ## Which lines are signed -/

/-- Whether a line is an `x-emc` header, in any letter case. -/
def IsEmcHeader (line : CStr) : Prop := emcPrefix <+: ByteText.lowercase line

theorem isWord_emcPrefix : IsWord emcPrefix := by
  decide

/-- **The code's test finds the `x-emc` headers.** -/
theorem isEmc_canonicalLine (line : CStr) :
    emcPrefix.isPrefixOf (squeeze .name (lowerName line)) = true ↔ IsEmcHeader line := by
  rw [List.isPrefixOf_iff_prefix, prefix_squeeze isWord_emcPrefix,
    prefix_lowerName isWord_emcPrefix]
  rfl

/-- The name decides. -/
theorem isEmcHeader_line (name value : CStr) :
    IsEmcHeader (name ++ colon :: value) ↔ emcPrefix <+: ByteText.lowercase name := by
  have hcolon : colon ∉ emcPrefix := by decide
  have hlow : toLower colon = colon := by decide
  have hname : ByteText.lowercase name ++ [colon] <+:
      ByteText.lowercase (name ++ colon :: value) :=
    ⟨ByteText.lowercase value, by simp [hlow]⟩
  constructor
  · intro h
    rcases List.prefix_or_prefix_of_prefix h hname with hpre | hpre
    · rcases List.prefix_concat_iff.mp hpre with heq | hpre
      · exact absurd (heq ▸ List.mem_append_right _ (List.mem_singleton_self _)) hcolon
      · exact hpre
    · exact absurd (hpre.subset (List.mem_append_right _ (List.mem_singleton_self _))) hcolon
  · intro h
    exact h.trans ((List.prefix_append _ _).trans hname)

/-- A header under an `x-emc` name is one. -/
theorem isEmcHeader_of_nameIs {name line : CStr} (hemc : emcPrefix <+: ByteText.lowercase name)
    (h : nameIs name line = true) : IsEmcHeader line := by
  have hname : ByteText.lowercase (headerName line) = ByteText.lowercase name := by
    simpa [nameIs] using h
  have hprefix : ByteText.lowercase (headerName line) <+: ByteText.lowercase line :=
    (List.takeWhile_prefix _).map toLower
  rw [hname] at hprefix
  exact hemc.trans hprefix

/-! ## The lines of known headers -/

/-- A name the library gives to an `x-emc` header: a word in lower case. -/
structure IsEmcName (name : CStr) : Prop where
  word : IsWord name
  lower : ByteText.lowercase name = name
  emc : emcPrefix <+: name

theorem IsEmcName.colon_notMem {name : CStr} (h : IsEmcName name) : colon ∉ name := by
  intro hmem
  exact (h.word colon hmem).2.2 rfl

theorem normalisedEmcLines_append (headers headers' : List CStr) :
    normalisedEmcLines (headers ++ headers') =
      normalisedEmcLines headers ++ normalisedEmcLines headers' := by
  rw [normalisedEmcLines, List.filterMap_append, List.filter_append]
  rfl

theorem canonicalLine_emc {name : CStr} (hname : IsEmcName name) (value : CStr) :
    canonicalLine (name ++ colon :: value) = some (name ++ colon :: squeeze .gap value) := by
  rw [canonicalLine_of_mem (List.mem_append_right _ (List.mem_cons_self ..)),
    lowerName_line hname.colon_notMem, hname.lower, squeeze_line hname.word]

/-- An `x-emc` header gives one line under its name. -/
theorem normalisedEmcLines_emc {name : CStr} (hname : IsEmcName name) (value : CStr) :
    normalisedEmcLines [name ++ colon :: value] = [name ++ colon :: squeeze .gap value] := by
  have hemc : emcPrefix.isPrefixOf (name ++ colon :: squeeze .gap value) = true :=
    List.isPrefixOf_iff_prefix.mpr (hname.emc.trans (List.prefix_append _ _))
  rw [normalisedEmcLines, List.filterMap_cons, canonicalLine_emc hname]
  exact List.filter_cons_of_pos hemc

/-- Other headers give no line. -/
theorem normalisedEmcLines_eq_nil {headers : List CStr}
    (h : ∀ line ∈ headers, ¬ IsEmcHeader line) : normalisedEmcLines headers = [] := by
  rw [normalisedEmcLines, List.filter_eq_nil_iff]
  intro line hmem
  obtain ⟨header, hheader, hline⟩ := List.mem_filterMap.mp hmem
  rw [canonicalLine_eq] at hline
  split at hline
  · cases hline
    rw [isEmc_canonicalLine]
    exact h header hheader
  · cases hline

end Atmos
