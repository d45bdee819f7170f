import Atmos.QueryString
import Atmos.SignatureCoverage

/-!
# Shareable URLs

`AtmosClient_get_shareable_url` signs the resource, the `uid`, the time the
URL expires and the disposition, and puts all but the resource into the query
of the URL.  What is signed is signed whole; what is put into the query is
encoded by the length that is left of it as an `int`.

* `getShareableUrlInternal_eq` — the URL is the origin, the URI as given, and
  the query;
* `shareableQuery_eq` — the query is that of the parameters
  `writtenParameters`;
* `shareable_url_integrity`, `UrlIntegrity.fits` — they read back as what was
  signed exactly when no length is cut.
-/

namespace Atmos

open ByteText FixedMemory QueryString

namespace AtmosClient

/-- The string that is signed for a URL, with the lower-cased URI. -/
def shareableText (self : AtmosClient) (uriLower expiresStr : CStr)
    (disposition : Option CStr) : CStr :=
  let hashString := bytes "GET\n" ++ uriLower ++ bytes "\n" ++ self.uid ++ bytes "\n" ++
    expiresStr
  match disposition with
  | none => hashString
  | some disposition => hashString ++ bytes "\n" ++ disposition

/-- The string that is signed for a URL of a URI. -/
def shareableHashString (self : AtmosClient) (uri expiresStr : CStr)
    (disposition : Option CStr) : CStr :=
  self.shareableText (AtmosUtil.lowercase uri) expiresStr disposition

/-- The scheme, the host and the port of a URL. -/
def origin (self : AtmosClient) : CStr :=
  if self.port ≠ -1 then
    self.host ++ snprintf atmosSimpleHeaderMax (bytes ":" ++ decimal self.port)
  else self.host

/-- `AtmosClient_get_shareable_url_internal`: no result where the index of
`AtmosUtil_lowercase` does not reach the end of the URI. -/
def getShareableUrlInternal (env : Env) (uri : CStr) (expires : Int64)
    (disposition : Option CStr) : Option CStr := do
  let append := AtmosUtil.cstringAppendUtf8 env.curl
  let uriLower ← AtmosUtil.Indexed.lowercase uri
  let expiresStr := snprintf atmosSimpleHeaderMax (decimal expires.toInt)
  let hashString := env.atmos.shareableText uriLower expiresStr disposition
  let signature := env.atmos.sign env.openssl hashString
  let url := env.atmos.origin ++ uri ++ bytes "?uid="
  let url := append url env.atmos.uid ++ bytes "&expires=" ++ expiresStr ++ bytes "&signature="
  let url := append url signature
  match disposition with
  | none => some url
  | some disposition => some (append (url ++ bytes "&disposition=") disposition)

/-- `AtmosClient_get_shareable_url`, with `uri` in a buffer of
`ATMOS_PATH_MAX`. -/
def getShareableUrl (env : Env) (objectId : CStr) (expires : Int64)
    (disposition : Option CStr) : Option CStr :=
  getShareableUrlInternal env (objectUri atmosPathMax objectId []) expires disposition

/-- `AtmosClient_get_shareable_url_ns` -/
def getShareableUrlNs (env : Env) (path : CStr) (expires : Int64)
    (disposition : Option CStr) : Option CStr :=
  getShareableUrlInternal env (namespaceUri atmosPathMax path []) expires disposition

/-- The query of a URL, for the URI that is signed. -/
def shareableQuery (env : Env) (uri : CStr) (expires : Int64) (disposition : Option CStr) :
    CStr :=
  let encoded := fun text => (env.curl.escapeString text).getD []
  let expiresStr := decimal expires.toInt
  let signature := env.atmos.sign env.openssl
    (env.atmos.shareableHashString uri expiresStr disposition)
  bytes "?uid=" ++ encoded env.atmos.uid ++ bytes "&expires=" ++ expiresStr ++
    bytes "&signature=" ++ encoded signature ++
    match disposition with
    | none => []
    | some disposition => bytes "&disposition=" ++ encoded disposition

end AtmosClient

/-- **The parts of a URL.** -/
theorem getShareableUrlInternal_eq (env : Env) {uri : CStr} (huri : uri.length < 2147483648)
    (expires : Int64) (disposition : Option CStr) :
    AtmosClient.getShareableUrlInternal env uri expires disposition =
      some (env.atmos.origin ++ uri ++
        AtmosClient.shareableQuery env uri expires disposition) := by
  have hexpires : snprintf atmosSimpleHeaderMax (decimal expires.toInt) =
      decimal expires.toInt := by
    have hlength := length_decimal_int64 expires
    have hsize : atmosSimpleHeaderMax = 255 := rfl
    exact snprintf_of_length_lt (by omega)
  have hlower : AtmosUtil.Indexed.lowercase uri = some (AtmosUtil.lowercase uri) := by
    rw [AtmosUtil.Indexed.lowercase_eq, if_pos (Nat.le_of_lt_succ huri)]
  unfold AtmosClient.getShareableUrlInternal AtmosClient.shareableQuery
    AtmosClient.shareableHashString
  rw [hexpires, hlower, Option.bind_eq_bind, Option.bind_some]
  cases disposition with
  | none => simp [AtmosUtil.cstringAppendUtf8]
  | some disposition => simp [AtmosUtil.cstringAppendUtf8]

theorem getShareableUrlInternal_eq_none (env : Env) {uri : CStr}
    (huri : ¬ uri.length < 2147483648) (expires : Int64) (disposition : Option CStr) :
    AtmosClient.getShareableUrlInternal env uri expires disposition = none := by
  have hlower : AtmosUtil.Indexed.lowercase uri = none := by
    rw [AtmosUtil.Indexed.lowercase_eq, if_neg fun h => huri (Nat.lt_succ_of_le h)]
  rw [AtmosClient.getShareableUrlInternal, hlower]
  rfl

/-! ## Reading a URL -/

/-- The parameters of a URL. -/
def shareableParameters (env : Env) (uri : CStr) (expires : Int64) (disposition : Option CStr) :
    List (CStr × CStr) :=
  let expiresStr := decimal expires.toInt
  let signature := env.atmos.sign env.openssl
    (env.atmos.shareableHashString uri expiresStr disposition)
  [(bytes "uid", env.atmos.uid), (bytes "expires", expiresStr), (bytes "signature", signature)] ++
    disposition.toList.map fun disposition => (bytes "disposition", disposition)

/-- A number is not encoded. -/
theorem encode_decimal (n : Int) : PercentEncoding.encode (decimal n) = decimal n := by
  have hdigits : ∀ b ∈ digits n.natAbs, PercentEncoding.unreserved b = true := by
    intro b hb
    obtain ⟨c, hc, rfl⟩ := List.mem_map.mp hb
    have hdigit := Nat.isDigit_of_mem_toDigits (by decide) (by decide) hc
    obtain ⟨hlow, hhigh⟩ : 48 ≤ c.toNat ∧ c.toNat ≤ 57 := by
      simpa [Char.isDigit, UInt32.le_iff_toNat_le] using hdigit
    have hbyte : 48 ≤ UInt8.ofNat c.toNat ∧ UInt8.ofNat c.toNat ≤ 57 := by
      have hsmall : c.toNat % 256 = c.toNat := Nat.mod_eq_of_lt (by omega)
      simp [UInt8.le_iff_toNat_le, hsmall, hlow, hhigh]
    simp [PercentEncoding.unreserved, hbyte]
  apply PercentEncoding.encode_of_unreserved
  unfold decimal
  split
  · intro b hb
    rcases List.mem_cons.mp hb with rfl | hb
    · decide
    · exact hdigits b hb
  · exact hdigits

/-- The parameters of a URL, as much of them as is encoded. -/
def writtenParameters (env : Env) (uri : CStr) (expires : Int64) (disposition : Option CStr) :
    List (CStr × CStr) :=
  (shareableParameters env uri expires disposition).map fun p => (p.1, escapedText p.2)

/-- A time has few digits. -/
theorem escapedText_decimal (expires : Int64) :
    escapedText (decimal expires.toInt) = decimal expires.toInt :=
  escapedText_of_uncut (.inl (Nat.lt_of_le_of_lt (length_decimal_int64 expires) (by decide)))

/-- A signature is short. -/
theorem escapedText_sign (env : Env) (hashString : CStr) :
    escapedText (env.atmos.sign env.openssl hashString) =
      env.atmos.sign env.openssl hashString := by
  apply escapedText_of_uncut
  rw [Uncut, AtmosClient.length_sign]
  exact .inl (by decide)

/-- **The query of a URL** is made of its parameters. -/
theorem shareableQuery_eq {env : Env} (hcurl : env.curl.Documented) (uri : CStr)
    (expires : Int64) (disposition : Option CStr) :
    AtmosClient.shareableQuery env uri expires disposition =
      question :: query (writtenParameters env uri expires disposition) := by
  have huid : bytes "?uid=" = question :: (bytes "uid" ++ [equals]) := by decide
  have hexpires : bytes "&expires=" = ampersand :: (bytes "expires" ++ [equals]) := by decide
  have hsignature : bytes "&signature=" = ampersand :: (bytes "signature" ++ [equals]) := by
    decide
  have hdisposition : bytes "&disposition=" = ampersand :: (bytes "disposition" ++ [equals]) := by
    decide
  unfold AtmosClient.shareableQuery writtenParameters shareableParameters query parameter
  rw [huid, hexpires, hsignature, hdisposition]
  simp only [hcurl.escapeString_getD]
  cases disposition with
  | none => simp [escapedText_decimal, encode_decimal, List.intercalate_cons_cons]
  | some disposition => simp [escapedText_decimal, encode_decimal, List.intercalate_cons_cons]

theorem isQueryName_parameters (env : Env) (uri : CStr) (expires : Int64)
    (disposition : Option CStr) :
    ∀ p ∈ writtenParameters env uri expires disposition, IsQueryName p.1 := by
  have hnames : (writtenParameters env uri expires disposition).map Prod.fst <+:
      [bytes "uid", bytes "expires", bytes "signature", bytes "disposition"] := by
    cases disposition with
    | none => exact ⟨[bytes "disposition"], rfl⟩
    | some disposition => exact List.prefix_rfl
  have hall : ∀ name ∈ [bytes "uid", bytes "expires", bytes "signature", bytes "disposition"],
      IsQueryName name := by decide
  intro p hp
  exact hall _ (hnames.subset (List.mem_map_of_mem hp))

/-- The query holds no second `?`, and no `#`. -/
theorem notMem_shareableQuery (env : Env) (uri : CStr) (expires : Int64)
    (disposition : Option CStr) :
    question ∉ query (writtenParameters env uri expires disposition) ∧
      hash ∉ query (writtenParameters env uri expires disposition) := by
  have hnames := isQueryName_parameters env uri expires disposition
  exact ⟨notMem_query hnames (by decide) (by decide) (by decide) (by decide),
    notMem_query hnames (by decide) (by decide) (by decide) (by decide)⟩

theorem readQuery_written (env : Env) (uri : CStr) (expires : Int64)
    (disposition : Option CStr) :
    readQuery (query (writtenParameters env uri expires disposition)) =
      some (writtenParameters env uri expires disposition) :=
  readQuery_query (List.cons_ne_nil _ _) (isQueryName_parameters env uri expires disposition)

/-! ## Lengths -/

/-- The URI can be lower-cased, and no length of what is put into the query is
cut. -/
structure UrlFits (env : Env) (uri : CStr) (disposition : Option CStr) : Prop where
  uri : uri.length < 2147483648
  uid : Uncut env.atmos.uid
  disposition : ∀ text, disposition = some text → Uncut text

/-- **The parameters are written whole** exactly then. -/
theorem writtenParameters_eq_iff (env : Env) (uri : CStr) (expires : Int64)
    (disposition : Option CStr) :
    writtenParameters env uri expires disposition =
        shareableParameters env uri expires disposition ↔
      Uncut env.atmos.uid ∧ ∀ text, disposition = some text → Uncut text := by
  unfold writtenParameters shareableParameters
  cases disposition with
  | none => simp [escapedText_decimal, escapedText_sign, escapedText_eq_self_iff]
  | some disposition => simp [escapedText_decimal, escapedText_sign, escapedText_eq_self_iff]

/-! ## Integrity -/

/-- The value of a parameter. -/
def parameterValue (params : List (CStr × CStr)) (name : CStr) : Option CStr :=
  (params.find? fun p => p.1 = name).map Prod.snd

/-- The string to sign, made again from the path and the parameters of a
URL. -/
def signedAgain (path : CStr) (params : List (CStr × CStr)) : CStr :=
  let text := bytes "GET\n" ++ ByteText.lowercase path ++
    bytes "\n" ++ (parameterValue params (bytes "uid")).getD [] ++
    bytes "\n" ++ (parameterValue params (bytes "expires")).getD []
  match parameterValue params (bytes "disposition") with
  | none => text
  | some disposition => text ++ bytes "\n" ++ disposition

theorem signedAgain_parameters (env : Env) (uri : CStr) (expires : Int64)
    (disposition : Option CStr) :
    signedAgain uri (shareableParameters env uri expires disposition) =
      env.atmos.shareableHashString uri (decimal expires.toInt) disposition := by
  cases disposition <;> rfl

/-- Integrity of a URL.  Behind the origin, it has the URI as its path, and a
query whose parameters are the `uid`, the time, the signature and the
disposition, if there is one.  The signature is that of the string made again
from the path and these parameters. -/
def UrlIntegrity (env : Env) (uri : CStr) (expires : Int64) (disposition : Option CStr) : Prop :=
  ∃ target text params signature,
    AtmosClient.getShareableUrlInternal env uri expires disposition =
      some (env.atmos.origin ++ target) ∧
    hash ∉ target ∧ cut question target = (uri, some text) ∧
    readQuery text = some params ∧
    params = [(bytes "uid", env.atmos.uid), (bytes "expires", decimal expires.toInt),
      (bytes "signature", signature)] ++
        disposition.toList.map (fun disposition => (bytes "disposition", disposition)) ∧
    signature = env.atmos.sign env.openssl (signedAgain uri params) ∧
    signedAgain uri params =
      env.atmos.shareableHashString uri (decimal expires.toInt) disposition

section Integrity

variable {env : Env} {uri : CStr} {expires : Int64} {disposition : Option CStr}

/-- What stands behind the origin. -/
theorem getShareableUrlInternal_target (hcurl : env.curl.Documented)
    (huri : uri.length < 2147483648) :
    AtmosClient.getShareableUrlInternal env uri expires disposition =
      some (env.atmos.origin ++
        (uri ++ question :: query (writtenParameters env uri expires disposition))) := by
  rw [getShareableUrlInternal_eq env huri, shareableQuery_eq hcurl, List.append_assoc]

/-- A URL of which nothing is cut keeps its integrity. -/
theorem shareable_url_integrity (hcurl : env.curl.Documented) (hquestion : question ∉ uri)
    (hhash : hash ∉ uri) (hfits : UrlFits env uri disposition) :
    UrlIntegrity env uri expires disposition := by
  have hwritten := (writtenParameters_eq_iff env uri expires disposition).mpr
    ⟨hfits.uid, hfits.disposition⟩
  have hread := readQuery_written env uri expires disposition
  have hclean := (notMem_shareableQuery env uri expires disposition).2
  have hurl := @getShareableUrlInternal_target env uri expires disposition hcurl hfits.uri
  rw [hwritten] at hread hclean hurl
  have hagain := signedAgain_parameters env uri expires disposition
  refine ⟨_, _, _, _, hurl, ?_, cut_append_sep hquestion, hread, rfl, ?_, hagain⟩
  · intro hmem
    rcases List.mem_append.mp hmem with hmem | hmem
    · exact hhash hmem
    · rcases List.mem_cons.mp hmem with heq | hmem
      · exact absurd heq (by decide)
      · exact hclean hmem
  · exact congrArg (env.atmos.sign env.openssl) hagain.symm

/-- Where it does, nothing has been cut: what is read is what was written. -/
theorem UrlIntegrity.fits (h : UrlIntegrity env uri expires disposition)
    (hcurl : env.curl.Documented) (hquestion : question ∉ uri) :
    UrlFits env uri disposition := by
  obtain ⟨target, text, params, signature, hurl, -, hcut, hread, hparams, hsignature, hagain⟩ := h
  by_cases huri : uri.length < 2147483648
  · rw [getShareableUrlInternal_target hcurl huri, Option.some_inj,
      List.append_cancel_left_eq] at hurl
    rw [← hurl, cut_append_sep hquestion] at hcut
    obtain rfl := Option.some.inj (Prod.mk.inj hcut).2
    rw [readQuery_written] at hread
    rw [hagain] at hsignature
    have hwritten : writtenParameters env uri expires disposition =
        shareableParameters env uri expires disposition := by
      rw [Option.some.inj hread, hparams, hsignature]
      rfl
    obtain ⟨huid, hdisposition⟩ := (writtenParameters_eq_iff ..).mp hwritten
    exact ⟨huri, huid, hdisposition⟩
  · rw [getShareableUrlInternal_eq_none env huri] at hurl
    cases hurl

/-- **Integrity of a URL.**  A URL for a URI without `?` and `#` keeps it exactly
when the URI can be lower-cased and the lengths of the `uid` and the disposition
are not cut. -/
theorem shareable_url_integrity_iff (hcurl : env.curl.Documented) (hquestion : question ∉ uri)
    (hhash : hash ∉ uri) (expires : Int64) (disposition : Option CStr) :
    UrlIntegrity env uri expires disposition ↔ UrlFits env uri disposition :=
  ⟨fun h => h.fits hcurl hquestion, shareable_url_integrity hcurl hquestion hhash⟩

end Integrity

/-- A disposition with delimiters. -/
def awkwardDisposition : CStr := bytes "attachment; filename=a&b=1%.txt"

/-- The reader's URL for `/docs/a.txt` until 11:15:33, with that disposition. -/
def sharingEnv : Env :=
  { readerEnv with openssl := .replay [readerRecording
      (bytes "GET\n/rest/namespace/docs/a.txt\n0123abcd/reader\n1772795733\n" ++
        awkwardDisposition)
      [191, 254, 215, 133, 68, 41, 139, 93, 127, 93, 65, 199, 163, 219, 61, 195, 61, 134, 239,
      138]
      (bytes "v/7XhUQpi11/XUHHo9s9wz2G74o=")] }

theorem shareable_url_integrity_docs :
    UrlIntegrity sharingEnv (bytes "/rest/namespace/docs/a.txt") 1772795733
      (some awkwardDisposition) := by
  have hlength : awkwardDisposition.length < 2147483648 := by decide
  rw [shareable_url_integrity_iff Curl.standard_documented (by decide) (by decide)]
  refine ⟨by decide, .inl (by decide), ?_⟩
  intro text htext
  obtain rfl := Option.some.inj htext
  exact .inl hlength

example : AtmosClient.getShareableUrlInternal sharingEnv (bytes "/rest/namespace/docs/a.txt")
    1772795733 (some awkwardDisposition) =
      some (bytes ("https://storage.example:443/rest/namespace/docs/a.txt?uid=0123abcd%2Freader" ++
        "&expires=1772795733&signature=v%2F7XhUQpi11%2FXUHHo9s9wz2G74o%3D" ++
        "&disposition=attachment%3B%20filename%3Da%26b%3D1%25.txt")) := by
  decide +kernel

/-- A disposition of 2³² + 1 bytes. -/
def longDisposition : CStr := List.replicate 4294967297 97

/-- Only its first byte is put into the URL, while all of it is signed. -/
theorem shareable_url_long_disposition :
    sharingEnv.curl.Documented ∧ question ∉ bytes "/rest/namespace/docs/a.txt" ∧
      hash ∉ bytes "/rest/namespace/docs/a.txt" ∧ (0 : UInt8) ∉ longDisposition ∧
      ¬ UrlIntegrity sharingEnv (bytes "/rest/namespace/docs/a.txt") 1772795733
        (some longDisposition) := by
  have hcurl : sharingEnv.curl.Documented := Curl.standard_documented
  have hquestion : question ∉ bytes "/rest/namespace/docs/a.txt" := by decide
  have hlength : longDisposition.length = 4294967297 := List.length_replicate
  refine ⟨hcurl, hquestion, by decide, ?_, ?_⟩
  · exact fun hnul => absurd (List.eq_of_mem_replicate hnul) (by decide)
  · intro h
    have huncut := (h.fits hcurl hquestion).disposition longDisposition rfl
    rw [Uncut, hlength] at huncut
    exact absurd huncut (by decide)

end Atmos
