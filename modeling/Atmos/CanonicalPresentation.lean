import Mathlib.Logic.Relation
import Atmos.CanonicalRequest

/-!
# The string to sign does not depend on presentation

Proxies and HTTP libraries reorder header lines, rewrite the case of header
names and URIs, and touch the spaces around separators.  `Presentation` is one
such change; this file shows that no sequence of them changes the string to
sign.

* `SpaceEdit.canonicalLine_eq` — the five kinds of space edit leave the
  normalised line alone;
* `SameContent` — what two header lists must share, and
  `Presentation.sameContent`, the step lemma;
* `canonicalizeRequest_presentation` — the run.

The lines and the URI are those that the indices of the source reach the end of;
`CanonicalLengths` takes the others in.
-/

namespace Atmos

open ByteText

/-! ## Space edits in one line -/

/-- An edit of the spaces of a line: the length of a non-empty run, or the
spaces before or after the first colon, before a comma or at the end. -/
inductive SpaceEdit : CStr → CStr → Prop
  | run (pre post : CStr) (m n : Nat) :
      SpaceEdit (pre ++ List.replicate (m + 1) space ++ post)
        (pre ++ List.replicate (n + 1) space ++ post)
  | beforeColon (name value : CStr) (m n : Nat) (hname : colon ∉ name) :
      SpaceEdit (name ++ List.replicate m space ++ colon :: value)
        (name ++ List.replicate n space ++ colon :: value)
  | afterColon (name value : CStr) (m n : Nat) (hname : colon ∉ name) :
      SpaceEdit (name ++ colon :: (List.replicate m space ++ value))
        (name ++ colon :: (List.replicate n space ++ value))
  | beforeComma (pre post : CStr) (m n : Nat) :
      SpaceEdit (pre ++ List.replicate m space ++ comma :: post)
        (pre ++ List.replicate n space ++ comma :: post)
  | atEnd (pre : CStr) (m n : Nat) :
      SpaceEdit (pre ++ List.replicate m space) (pre ++ List.replicate n space)

private theorem colon_notMem_spaces (n : Nat) : colon ∉ List.replicate n space := by
  intro h
  exact absurd (List.eq_of_mem_replicate h) (by decide)

private theorem lowercase_spaces (n : Nat) :
    ByteText.lowercase (List.replicate n space) = List.replicate n space := by
  have hspace : toLower space = space := by decide
  rw [ByteText.lowercase, List.map_replicate, hspace]

private theorem lowerName_spaces (n : Nat) (s : CStr) :
    lowerName (List.replicate n space ++ s) = List.replicate n space ++ lowerName s := by
  rw [lowerName_append_of_notMem (colon_notMem_spaces n), lowercase_spaces]

/-- Spaces between two texts stay between two texts when the name is
lower-cased. -/
private theorem lowerName_around (pre post : CStr) :
    ∃ pre' post', (post' = post ∨ post' = lowerName post) ∧
      ∀ n, lowerName (pre ++ List.replicate n space ++ post) =
        pre' ++ List.replicate n space ++ post' := by
  by_cases hpre : colon ∈ pre
  · refine ⟨lowerName pre, post, Or.inl rfl, fun n => ?_⟩
    rw [List.append_assoc, lowerName_append_of_mem hpre, List.append_assoc]
  · refine ⟨ByteText.lowercase pre, lowerName post, Or.inr rfl, fun n => ?_⟩
    rw [List.append_assoc, lowerName_append_of_notMem hpre, lowerName_spaces,
      List.append_assoc]

theorem SpaceEdit.colon_mem {line line' : CStr} (h : SpaceEdit line line') :
    colon ∈ line ↔ colon ∈ line' := by
  have hne : colon ≠ space := by decide
  cases h <;> simp [hne]

/-- Lower-casing the name keeps the edit. -/
theorem SpaceEdit.lowerName {line line' : CStr} (h : SpaceEdit line line') :
    SpaceEdit (lowerName line) (lowerName line') := by
  cases h with
  | run pre post m n =>
      obtain ⟨pre', post', -, heq⟩ := lowerName_around pre post
      rw [heq, heq]
      exact SpaceEdit.run pre' post' m n
  | beforeColon name value m n hname =>
      have hline : ∀ k, Atmos.lowerName (name ++ List.replicate k space ++ colon :: value) =
          ByteText.lowercase name ++ List.replicate k space ++ colon :: value := by
        intro k
        have hcolon : colon ∉ name ++ List.replicate k space := fun h =>
          (List.mem_append.mp h).elim hname (colon_notMem_spaces k)
        rw [lowerName_line hcolon, lowercase_append, lowercase_spaces]
      rw [hline, hline]
      refine SpaceEdit.beforeColon _ value m n ?_
      simpa [ByteText.lowercase] using hname
  | afterColon name value m n hname =>
      rw [lowerName_line hname, lowerName_line hname]
      refine SpaceEdit.afterColon _ value m n ?_
      simpa [ByteText.lowercase] using hname
  | beforeComma pre post m n =>
      obtain ⟨pre', post', hpost, heq⟩ := lowerName_around pre (comma :: post)
      rw [heq, heq]
      rcases hpost with rfl | rfl
      · exact SpaceEdit.beforeComma pre' post m n
      · have hcomma : Atmos.lowerName (comma :: post) = comma :: Atmos.lowerName post := rfl
        rw [hcomma]
        exact SpaceEdit.beforeComma pre' _ m n
  | atEnd pre m n =>
      obtain ⟨pre', post', hpost, heq⟩ := lowerName_around pre []
      have hnil : post' = [] := by
        rcases hpost with rfl | rfl <;> rfl
      subst hnil
      have hm := heq m
      have hn := heq n
      rw [List.append_nil, List.append_nil] at hm hn
      rw [hm, hn]
      exact SpaceEdit.atEnd pre' m n

/-- Spaces where the byte behind them lets them drop can be edited freely. -/
private theorem squeeze_around {pre post : CStr}
    (h : (Phase.name.after pre).drops post = true) (m n : Nat) :
    squeeze .name (pre ++ List.replicate m space ++ post) =
      squeeze .name (pre ++ List.replicate n space ++ post) := by
  have hsame := (interchangeable_spaces h m n).append pre
  rw [List.append_assoc, List.append_assoc]
  exact hsame.1

/-- An edit of the spaces is invisible after normalisation. -/
theorem SpaceEdit.squeeze_eq {line line' : CStr} (h : SpaceEdit line line') :
    squeeze .name line = squeeze .name line' := by
  cases h with
  | run pre post m n =>
      -- the last space of the run stays, the others are dropped before it
      have hrun : ∀ k, pre ++ List.replicate (k + 1) space ++ post =
          pre ++ List.replicate k space ++ space :: post := by
        intro k
        rw [List.replicate_succ']
        simp
      rw [hrun m, hrun n]
      apply squeeze_around
      simp [Phase.drops]
  | beforeColon name value m n hname =>
      apply squeeze_around
      rw [after_name hname]
      simp [Phase.drops]
  | afterColon name value m n hname =>
      have hline : ∀ k, name ++ colon :: (List.replicate k space ++ value) =
          (name ++ [colon]) ++ List.replicate k space ++ value := by
        intro k
        simp
      rw [hline m, hline n]
      apply squeeze_around
      rw [after_header_name hname]
      exact drops_gap value
  | beforeComma pre post m n =>
      apply squeeze_around
      simp [Phase.drops]
  | atEnd pre m n =>
      have hdrops : (Phase.name.after pre).drops [] = true := rfl
      have hend := squeeze_around hdrops m n
      rw [List.append_nil, List.append_nil] at hend
      exact hend

/-- **A space edit leaves the normalised line alone.** -/
theorem SpaceEdit.canonicalLine_eq {line line' : CStr} (h : SpaceEdit line line') :
    canonicalLine line = canonicalLine line' := by
  rw [Atmos.canonicalLine_eq, Atmos.canonicalLine_eq, h.lowerName.squeeze_eq]
  simp only [h.colon_mem]

/-! ## Changes of presentation -/

/-- The four headers whose values are signed. -/
def valueHeaders : List CStr :=
  [httpHeaderContentType, httpHeaderRange, httpHeaderContentRange, httpHeaderDate]

/-- One change of presentation. -/
inductive Presentation : RestRequest → RestRequest → Prop
  | permute {r : RestRequest} {headers : List CStr} (hperm : r.headers.Perm headers) :
      Presentation r { r with headers := headers }
  | nameCase {r : RestRequest} {before after : List CStr} {name name' value : CStr}
      (hheaders : r.headers = before ++ (name ++ colon :: value) :: after)
      (hname : colon ∉ name) (hemc : IsEmcHeader (name ++ colon :: value))
      (hcase : ByteText.lowercase name = ByteText.lowercase name') :
      Presentation r { r with headers := before ++ (name' ++ colon :: value) :: after }
  | spaces {r : RestRequest} {before after : List CStr} {line line' : CStr}
      (hheaders : r.headers = before ++ line :: after)
      (hemc : IsEmcHeader line) (hedit : SpaceEdit line line') :
      Presentation r { r with headers := before ++ line' :: after }
  | addOther {r : RestRequest} {before after : List CStr} {line : CStr}
      (hheaders : r.headers = before ++ after) (hcolon : colon ∈ line)
      (hemc : ¬ IsEmcHeader line) (hother : ∀ name ∈ valueHeaders, nameIs name line = false) :
      Presentation r { r with headers := before ++ line :: after }
  | removeOther {r : RestRequest} {before after : List CStr} {line : CStr}
      (hheaders : r.headers = before ++ line :: after)
      (hemc : ¬ IsEmcHeader line) (hother : ∀ name ∈ valueHeaders, nameIs name line = false) :
      Presentation r { r with headers := before ++ after }
  | uriCase {r : RestRequest} {uri : CStr}
      (hcase : ByteText.lowercase r.uri = ByteText.lowercase uri) :
      Presentation r { r with uri := uri }

/-- What the string to sign reads of a header list. -/
structure SameContent (headers headers' : List CStr) : Prop where
  colons : (∀ line ∈ headers, colon ∈ line) → ∀ line ∈ headers', colon ∈ line
  values : ∀ name ∈ valueHeaders,
    (headers.filter (nameIs name)).Perm (headers'.filter (nameIs name))
  emcLines : (normalisedEmcLines headers).Perm (normalisedEmcLines headers')

/-- An `x-emc` header is none of the four. -/
theorem nameIs_of_isEmcHeader {line name : CStr} (hemc : IsEmcHeader line)
    (hname : name ∈ valueHeaders) : nameIs name line = false := by
  have hdistinct : ∀ name ∈ valueHeaders, ¬ (emcPrefix <+: ByteText.lowercase name) ∧
      ¬ (ByteText.lowercase name <+: emcPrefix) := by decide
  obtain ⟨hnot, hnot'⟩ := hdistinct name hname
  have hprefix : ByteText.lowercase (headerName line) <+: ByteText.lowercase line :=
    (List.takeWhile_prefix _).map toLower
  by_contra htrue
  have heq : ByteText.lowercase (headerName line) = ByteText.lowercase name := by
    simpa [nameIs] using htrue
  rw [heq] at hprefix
  rcases List.prefix_or_prefix_of_prefix hemc hprefix with h | h
  · exact hnot h
  · exact hnot' h

/-- Another spelling of a line shares its content. -/
theorem SameContent.replace {before after : List CStr} {line line' : CStr}
    (hcanonical : canonicalLine line = canonicalLine line')
    (hcolon : colon ∈ line → colon ∈ line')
    (hother : ∀ name ∈ valueHeaders, nameIs name line = false)
    (hother' : ∀ name ∈ valueHeaders, nameIs name line' = false) :
    SameContent (before ++ line :: after) (before ++ line' :: after) where
  colons h l hl := by
    rcases List.mem_append.mp hl with hl | hl
    · exact h l (List.mem_append_left _ hl)
    · rcases List.mem_cons.mp hl with rfl | hl
      · exact hcolon (h line (by simp))
      · exact h l (by simp [hl])
  values name hname := by
    rw [List.filter_append, List.filter_append,
      List.filter_cons_of_neg (by simp [hother name hname]),
      List.filter_cons_of_neg (by simp [hother' name hname])]
  emcLines := by
    rw [normalisedEmcLines, normalisedEmcLines, List.filterMap_append,
      List.filterMap_append, List.filterMap_cons, List.filterMap_cons, hcanonical]

/-- A header that is neither signed nor read adds nothing. -/
theorem SameContent.drop {before after : List CStr} {line : CStr}
    (hemc : ¬ IsEmcHeader line) (hother : ∀ name ∈ valueHeaders, nameIs name line = false) :
    SameContent (before ++ line :: after) (before ++ after) where
  colons h l hl := by
    rcases List.mem_append.mp hl with hl | hl
    · exact h l (List.mem_append_left _ hl)
    · exact h l (by simp [hl])
  values name hname := by
    rw [List.filter_append, List.filter_append,
      List.filter_cons_of_neg (by simp [hother name hname])]
  emcLines := by
    have hline : ((canonicalLine line).toList.filter (emcPrefix.isPrefixOf ·)) = [] := by
      rw [canonicalLine_eq]
      split
      · rw [Option.toList_some, List.filter_cons_of_neg]
        · rfl
        · intro h
          exact hemc ((isEmc_canonicalLine line).mp h)
      · rfl
    have hsplit : (line :: after).filterMap canonicalLine =
        (canonicalLine line).toList ++ after.filterMap canonicalLine := by
      rw [List.filterMap_cons]
      cases canonicalLine line <;> rfl
    rw [normalisedEmcLines, normalisedEmcLines, List.filterMap_append,
      List.filterMap_append, hsplit, List.filter_append, List.filter_append,
      List.filter_append, hline]
    rfl

/-- Sharing the content is symmetric as far as the new line has a colon. -/
theorem SameContent.add {before after : List CStr} {line : CStr} (hcolon : colon ∈ line)
    (hemc : ¬ IsEmcHeader line) (hother : ∀ name ∈ valueHeaders, nameIs name line = false) :
    SameContent (before ++ after) (before ++ line :: after) where
  colons h l hl := by
    rcases List.mem_append.mp hl with hl | hl
    · exact h l (List.mem_append_left _ hl)
    · rcases List.mem_cons.mp hl with rfl | hl
      · exact hcolon
      · exact h l (by simp [hl])
  values name hname := ((SameContent.drop hemc hother).values name hname).symm
  emcLines := (SameContent.drop hemc hother).emcLines.symm

/-- **The step lemma.**  A change of presentation keeps the method, the
lower-cased URI and the content of the headers. -/
theorem Presentation.sameContent {r r' : RestRequest} (h : Presentation r r') :
    r'.method = r.method ∧ ByteText.lowercase r'.uri = ByteText.lowercase r.uri ∧
      SameContent r.headers r'.headers := by
  cases h with
  | permute hperm =>
      refine ⟨rfl, rfl, ?_, ?_, ?_⟩
      · intro h line hline
        exact h line (hperm.mem_iff.mpr hline)
      · intro name _
        exact hperm.filter _
      · exact (hperm.filterMap _).filter _
  | @nameCase before after name name' value hheaders hname hemc hcase =>
      have hname' : colon ∉ name' := by
        have hlower : colon ∉ ByteText.lowercase name := by
          simpa [ByteText.lowercase] using hname
        rw [hcase] at hlower
        simpa [ByteText.lowercase] using hlower
      have hemc' : IsEmcHeader (name' ++ colon :: value) := by
        rw [IsEmcHeader, lowercase_append, ← hcase, ← lowercase_append]
        exact hemc
      have hcanonical : canonicalLine (name ++ colon :: value) =
          canonicalLine (name' ++ colon :: value) := by
        rw [canonicalLine_of_mem (by simp), canonicalLine_of_mem (by simp),
          lowerName_line hname, lowerName_line hname', hcase]
      rw [hheaders]
      exact ⟨rfl, rfl, SameContent.replace hcanonical (fun _ => by simp)
        (fun _ h => nameIs_of_isEmcHeader hemc h)
        (fun _ h => nameIs_of_isEmcHeader hemc' h)⟩
  | @spaces before after line line' hheaders hemc hedit =>
      have hemc' : IsEmcHeader line' := by
        rw [← isEmc_canonicalLine, ← hedit.lowerName.squeeze_eq]
        exact (isEmc_canonicalLine line).mpr hemc
      rw [hheaders]
      exact ⟨rfl, rfl, SameContent.replace hedit.canonicalLine_eq hedit.colon_mem.mp
        (fun _ h => nameIs_of_isEmcHeader hemc h)
        (fun _ h => nameIs_of_isEmcHeader hemc' h)⟩
  | addOther hheaders hcolon hemc hother =>
      rw [hheaders]
      exact ⟨rfl, rfl, SameContent.add hcolon hemc hother⟩
  | removeOther hheaders hemc hother =>
      rw [hheaders]
      exact ⟨rfl, rfl, SameContent.drop hemc hother⟩
  | uriCase hcase =>
      exact ⟨rfl, hcase.symm, fun h => h, fun _ _ => List.Perm.refl _, List.Perm.refl _⟩

/-! ## The string to sign -/

/-- A request with a colon in every header line and at most one header of each
of the four names. -/
structure Signable (r : RestRequest) : Prop where
  colons : ∀ line ∈ r.headers, colon ∈ line
  once : ∀ name ∈ valueHeaders, (r.headers.filter (nameIs name)).length ≤ 1

theorem Presentation.signable {r r' : RestRequest} (h : Presentation r r')
    (hr : Signable r) : Signable r' := by
  obtain ⟨-, -, hsame⟩ := h.sameContent
  constructor
  · exact hsame.colons hr.colons
  · intro name hname
    rw [← (hsame.values name hname).length_eq]
    exact hr.once name hname

/-- The four values only depend on the headers of their names. -/
theorem getHeaderValue_of_sameContent (rest : RestClient) {headers headers' : List CStr}
    {name : CStr} (hsame : SameContent headers headers') (hname : name ∈ valueHeaders)
    (hone : (headers.filter (nameIs name)).length ≤ 1) :
    rest.getHeaderValue headers name = rest.getHeaderValue headers' name := by
  have hone' : ((headers.filter (nameIs name)).filter (nameIs name)).length ≤ 1 := by
    rw [List.filter_filter]
    simpa using hone
  have hperm := rest.getHeaderValue_eq_of_perm hone' (hsame.values name hname)
  rw [rest.getHeaderValue_filter, rest.getHeaderValue_filter] at hperm
  exact hperm

/-- One change of presentation does not change the string. -/
theorem canonicalizeRequest_step (rest : RestClient) {r r' : RestRequest}
    (h : Presentation r r') (hr : Signable r) :
    AtmosClient.canonicalizeRequest rest r = AtmosClient.canonicalizeRequest rest r' := by
  obtain ⟨hmethod, huri, hsame⟩ := h.sameContent
  have hvalue : ∀ name ∈ valueHeaders,
      rest.getHeaderValue r.headers name = rest.getHeaderValue r'.headers name :=
    fun name hname => getHeaderValue_of_sameContent rest hsame hname (hr.once name hname)
  have hhead : signedHead rest r = signedHead rest r' := by
    simp only [signedHead, AtmosClient.rangeValue, hmethod, huri,
      hvalue httpHeaderContentType (by decide), hvalue httpHeaderRange (by decide),
      hvalue httpHeaderContentRange (by decide), hvalue httpHeaderDate (by decide)]
  have hlines : signedLines r.headers = signedLines r'.headers :=
    sortTexts_eq_of_perm hsame.emcLines
  rw [canonicalizeRequest_eq rest hr.colons,
    canonicalizeRequest_eq rest (hsame.colons hr.colons), hhead, hlines]

/-- **The string to sign does not depend on presentation.**  No sequence of
changes to the order, letter case, spaces or unsigned headers of a request
changes the string. -/
theorem canonicalizeRequest_presentation (rest : RestClient) {r r' : RestRequest}
    (hcolons : ∀ line ∈ r.headers, colon ∈ line)
    (honce : ∀ name ∈ valueHeaders, (r.headers.filter (nameIs name)).length ≤ 1)
    (hchanges : Relation.ReflTransGen Presentation r r') :
    AtmosClient.canonicalizeRequest rest r = AtmosClient.canonicalizeRequest rest r' := by
  have hrun : Signable r' ∧
      AtmosClient.canonicalizeRequest rest r = AtmosClient.canonicalizeRequest rest r' := by
    induction hchanges with
    | refl => exact ⟨⟨hcolons, honce⟩, rfl⟩
    | tail _ hstep ih =>
        obtain ⟨hsignable, hsame⟩ := ih
        exact ⟨hstep.signable hsignable,
          hsame.trans (canonicalizeRequest_step rest hstep hsignable)⟩
  exact hrun.2

end Atmos
