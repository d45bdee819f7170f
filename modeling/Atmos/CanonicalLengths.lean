import Atmos.CanonicalPresentation
import Atmos.WhitespaceRuns

/-!
# Lengths of signed texts

The loops behind `AtmosClient_canonicalize_request` index the header lines and
the URI with 32 bits.  An `int` that passes its largest value overflows; an
`unsigned int` starts again at 0, and the loop does not end.  The functions with
these indices are the ones of `Indexed`.

* `Indexed.canonicalizeRequest_eq_some_iff` — they return the string that the
  functions without bounds return, for requests that fit the indices, and no
  other;
* `canonicalizeRequest_presentation_iff` — what this leaves of the independence
  of presentation: a run of spaces can be made too long.
-/

namespace Atmos

open ByteText

/-! ## The functions with their indices -/

namespace Indexed

/-- `AtmosUtil_lowercaseheader` and then `AtmosUtil_normalize_whitespace`. -/
def canonicalLine (line : CStr) : Option CStr :=
  (AtmosUtil.Indexed.lowercaseheader line).bind AtmosUtil.Indexed.normalizeWhitespace

/-- `AtmosClient_canonicalize_request` -/
def canonicalizeRequest (rest : RestClient) (request : RestRequest) : Option CStr := do
  let lines ← request.headers.mapM canonicalLine
  let loweruri ← AtmosUtil.Indexed.lowercase request.uri
  some (AtmosClient.stringToSign rest request lines loweruri)

end Indexed

/-- The indices reach the colon of a line and its end. -/
structure LineFits (line : CStr) : Prop where
  name : (headerName line).length < 2147483648
  line : line.length < 4294967296

/-- The indices reach what they are to find in a request. -/
structure FitsIndices (r : RestRequest) : Prop where
  lines : ∀ line ∈ r.headers, LineFits line
  uri : r.uri.length < 2147483648

/-- The header lines are strings of C. -/
def NulFree (headers : List CStr) : Prop := ∀ line ∈ headers, (0 : UInt8) ∉ line

/-! ## One line -/

section Line

variable {line : CStr}

theorem Indexed.canonicalLine_of_fits (hnul : (0 : UInt8) ∉ line) (hfits : LineFits line) :
    Indexed.canonicalLine line = Atmos.canonicalLine line := by
  have hheader : AtmosUtil.Indexed.lowercaseheader line = AtmosUtil.lowercaseheader line := by
    rw [AtmosUtil.Indexed.lowercaseheader_eq]
    exact if_pos (Nat.le_of_lt_succ hfits.name)
  rw [Indexed.canonicalLine, hheader, Atmos.canonicalLine, lowercaseheader_eq]
  split
  · have hlower : (0 : UInt8) ∉ lowerName line := fun hmem => hnul (nul_mem_lowerName.mp hmem)
    rw [Option.bind_some, Option.map_some, AtmosUtil.Indexed.normalizeWhitespace_eq hlower,
      length_lowerName]
    exact if_pos hfits.line
  · rfl

/-- The loops over a longer line do not come to an end. -/
theorem Indexed.canonicalLine_eq_none (hnul : (0 : UInt8) ∉ line) (hfits : ¬ LineFits line) :
    Indexed.canonicalLine line = none := by
  rw [Indexed.canonicalLine, AtmosUtil.Indexed.lowercaseheader_eq]
  split
  · rename_i hname
    have hlong : ¬ line.length < UInt32.size :=
      fun hline => hfits ⟨Nat.lt_succ_of_le hname, hline⟩
    rw [lowercaseheader_eq]
    split
    · have hlower : (0 : UInt8) ∉ lowerName line := fun hmem => hnul (nul_mem_lowerName.mp hmem)
      rw [Option.bind_some, AtmosUtil.Indexed.normalizeWhitespace_eq hlower, length_lowerName]
      exact if_neg hlong
    · rfl
  · rfl

end Line

/-! ## A request -/

section Request

variable {rest : RestClient} {r : RestRequest}

theorem Indexed.mapM_canonicalLine_of_fits {headers : List CStr} (hnul : NulFree headers)
    (hfits : ∀ line ∈ headers, LineFits line) :
    headers.mapM Indexed.canonicalLine = headers.mapM Atmos.canonicalLine := by
  induction headers with
  | nil => rfl
  | cons line headers ih =>
      obtain ⟨hline, hnul⟩ := List.forall_mem_cons.mp hnul
      obtain ⟨hlineFits, hfits⟩ := List.forall_mem_cons.mp hfits
      rw [List.mapM_cons, List.mapM_cons, Indexed.canonicalLine_of_fits hline hlineFits,
        ih hnul hfits]

theorem Indexed.mapM_canonicalLine_eq_none {headers : List CStr} (hnul : NulFree headers)
    (hfits : ¬ ∀ line ∈ headers, LineFits line) :
    headers.mapM Indexed.canonicalLine = none := by
  induction headers with
  | nil => exact absurd (fun _ h => absurd h List.not_mem_nil) hfits
  | cons line headers ih =>
      obtain ⟨hline, hnul⟩ := List.forall_mem_cons.mp hnul
      rw [List.mapM_cons]
      by_cases hlineFits : LineFits line
      · rw [ih hnul fun h => hfits (List.forall_mem_cons.mpr ⟨hlineFits, h⟩)]
        cases Indexed.canonicalLine line <;> rfl
      · rw [Indexed.canonicalLine_eq_none hline hlineFits]
        rfl

/-- **The string, where there is one.**  With its indices the function returns a
string exactly for the requests that fit them, and then the one that it returns
without bounds. -/
theorem Indexed.canonicalizeRequest_eq_some_iff (hnul : NulFree r.headers) {hashString : CStr} :
    Indexed.canonicalizeRequest rest r = some hashString ↔
      FitsIndices r ∧ AtmosClient.canonicalizeRequest rest r = some hashString := by
  unfold Indexed.canonicalizeRequest AtmosClient.canonicalizeRequest
  rw [AtmosUtil.Indexed.lowercase_eq]
  by_cases hlines : ∀ line ∈ r.headers, LineFits line
  · rw [Indexed.mapM_canonicalLine_of_fits hnul hlines]
    by_cases huri : r.uri.length < 2147483648
    · have hfits : FitsIndices r := ⟨hlines, huri⟩
      rw [if_pos (Nat.le_of_lt_succ huri), and_iff_right hfits]
      rfl
    · have hfits : ¬ FitsIndices r := fun h => huri h.uri
      rw [if_neg fun h => huri (Nat.lt_succ_of_le h)]
      refine iff_of_false ?_ fun h => hfits h.1
      cases r.headers.mapM Atmos.canonicalLine <;> exact (Option.some_ne_none _).symm
  · have hfits : ¬ FitsIndices r := fun h => hlines h.lines
    rw [Indexed.mapM_canonicalLine_eq_none hnul hlines]
    exact iff_of_false (Option.some_ne_none _).symm fun h => hfits h.1

end Request

/-! ## Presentation -/

/-- **Presentation and lengths.**  Changes of presentation do not change the
string to sign of a request exactly where it fits the indices before and after
them. -/
theorem canonicalizeRequest_presentation_iff (rest : RestClient) {r r' : RestRequest}
    (hcolons : ∀ line ∈ r.headers, colon ∈ line)
    (honce : ∀ name ∈ valueHeaders, (r.headers.filter (nameIs name)).length ≤ 1)
    (hnul : NulFree r.headers) (hnul' : NulFree r'.headers)
    (hchanges : Relation.ReflTransGen Presentation r r') :
    (∃ hashString, Indexed.canonicalizeRequest rest r = some hashString ∧
      Indexed.canonicalizeRequest rest r' = some hashString) ↔
    FitsIndices r ∧ FitsIndices r' := by
  have hsame := canonicalizeRequest_presentation rest hcolons honce hchanges
  simp only [Indexed.canonicalizeRequest_eq_some_iff hnul,
    Indexed.canonicalizeRequest_eq_some_iff hnul', ← hsame]
  constructor
  · rintro ⟨hashString, ⟨hfits, -⟩, hfits', -⟩
    exact ⟨hfits, hfits'⟩
  · rintro ⟨hfits, hfits'⟩
    have hcanonical := canonicalizeRequest_eq rest hcolons
    exact ⟨_, ⟨hfits, hcanonical⟩, hfits', hcanonical⟩

/-- A request whose lines come in another order, with one space more. -/
private def spacedRequest : RestRequest :=
  { uri := bytes "/rest/Objects"
    method := .get
    headers := [bytes "Date: d", bytes "X-Emc-Uid: a" ++ List.replicate 2 space ++ bytes "b"]
    requestBody := none }

/-- The same request in other words. -/
private def respelledRequest : RestRequest :=
  { uri := bytes "/rest/objects"
    method := .get
    headers := [bytes "X-Emc-Uid: a" ++ List.replicate 1 space ++ bytes "b", bytes "Date: d"]
    requestBody := none }

private theorem spaced_respelled :
    Relation.ReflTransGen Presentation spacedRequest respelledRequest := by
  have hswap := Presentation.permute (r := spacedRequest) (List.Perm.swap _ _ [])
  have hspaces := Presentation.spaces
    (r := { spacedRequest with
      headers := [bytes "X-Emc-Uid: a" ++ List.replicate 2 space ++ bytes "b",
        bytes "Date: d"] })
    (List.nil_append _).symm (by unfold IsEmcHeader; decide)
    (SpaceEdit.run (bytes "X-Emc-Uid: a") (bytes "b") 1 0)
  refine ((Relation.ReflTransGen.single hswap).tail hspaces).tail ?_
  exact Presentation.uriCase (by decide)

private theorem fitsIndices_of_short {r : RestRequest}
    (hlines : ∀ line ∈ r.headers, line.length < 2147483648) (huri : r.uri.length < 2147483648) :
    FitsIndices r where
  lines line hline :=
    { name := Nat.lt_of_le_of_lt (List.takeWhile_prefix _).length_le (hlines line hline)
      line := Nat.lt_trans (hlines line hline) (by decide) }
  uri := huri

theorem canonicalizeRequest_presentation_iff_respelled :
    ∃ hashString, Indexed.canonicalizeRequest RestClient.plain spacedRequest = some hashString ∧
      Indexed.canonicalizeRequest RestClient.plain respelledRequest = some hashString :=
  (canonicalizeRequest_presentation_iff RestClient.plain (by decide) (by decide)
    (by unfold NulFree; decide) (by unfold NulFree; decide) spaced_respelled).mpr
    ⟨fitsIndices_of_short (by decide) (by decide), fitsIndices_of_short (by decide) (by decide)⟩

/-- A request with a run of spaces in an `x-emc` line. -/
def runRequest (n : Nat) : RestRequest where
  uri := bytes "/rest/objects"
  method := .get
  headers := [bytes "x-emc-meta:a" ++ List.replicate (n + 1) space ++ bytes "b"]
  requestBody := none

theorem runRequest_presentation (m n : Nat) : Presentation (runRequest m) (runRequest n) := by
  have hname : emcPrefix <+: ByteText.lowercase (bytes "x-emc-meta:a") := by decide
  have hemc : IsEmcHeader (bytes "x-emc-meta:a" ++ List.replicate (m + 1) space ++ bytes "b") := by
    rw [IsEmcHeader, List.append_assoc, lowercase_append]
    exact hname.trans (List.prefix_append _ _)
  exact Presentation.spaces (r := runRequest m) (List.nil_append _).symm hemc
    (SpaceEdit.run (bytes "x-emc-meta:a") (bytes "b") m n)

theorem nulFree_runRequest (n : Nat) : NulFree (runRequest n).headers := by
  refine List.forall_mem_singleton.mpr ?_
  simp only [List.mem_append, not_or]
  exact ⟨⟨by decide, fun h => absurd (List.eq_of_mem_replicate h) (by decide)⟩, by decide⟩

theorem lt_of_fitsIndices_runRequest {n : Nat} (h : FitsIndices (runRequest n)) :
    n < 4294967295 := by
  have hline := (h.lines _ (List.mem_singleton_self _)).line
  rw [List.length_append, List.length_append, List.length_replicate] at hline
  omega

/-- **A run of 2³² spaces.**  The string to sign of the request with one space is
not made again when the run is that long. -/
theorem canonicalizeRequest_long_run :
    Signable (runRequest 0) ∧
      Relation.ReflTransGen Presentation (runRequest 0) (runRequest 4294967295) ∧
      NulFree (runRequest 0).headers ∧ NulFree (runRequest 4294967295).headers ∧
      (Indexed.canonicalizeRequest RestClient.plain (runRequest 0)).isSome ∧
      Indexed.canonicalizeRequest RestClient.plain (runRequest 4294967295) = none := by
  have hnul := nulFree_runRequest 4294967295
  have hlong : ¬ FitsIndices (runRequest 4294967295) :=
    fun h => absurd (lt_of_fitsIndices_runRequest h) (by decide)
  have hsignable : Signable (runRequest 0) := ⟨by decide, by decide⟩
  have hfits : FitsIndices (runRequest 0) := fitsIndices_of_short (by decide) (by decide)
  refine ⟨hsignable, .single (runRequest_presentation 0 4294967295), nulFree_runRequest 0, hnul,
    ?_, ?_⟩
  · exact Option.isSome_of_eq_some ((Indexed.canonicalizeRequest_eq_some_iff
      (nulFree_runRequest 0)).mpr ⟨hfits, canonicalizeRequest_eq _ hsignable.colons⟩)
  · rw [Option.eq_none_iff_forall_ne_some]
    intro hashString h
    exact hlong ((Indexed.canonicalizeRequest_eq_some_iff hnul).mp h).1

end Atmos
