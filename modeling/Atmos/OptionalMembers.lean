import Mathlib.Data.List.Induction
import Atmos.MemberRoundTrip
import Atmos.PolicyXml

/-!
# Optional members

A policy and an access token have the same three optional members: an instant
and two numbers.  Each comes with a flag for the values that were there.  The
generated binders set the flag of a number if `sscanf` returns anything but zero,
which includes the `EOF` of a blank text, and that of an instant always.

* `bindInt_reflects_iff`, `bindDateTime_reflects_iff` — which texts they treat as
  they should;
* `optional_members_iff` — so which documents.
-/

namespace Atmos

open ByteText CivilTime FormattedText XmlDocument

/-! ## `accessTokenType` -/

/-- The elements of an access token. -/
inductive AccessTokenMember where
  | accessTokenId
  | expiration
  | maxUploads
  | maxDownloads
  | source
  | contentLengthRange
  | uid
  | objectId
  | path
  deriving DecidableEq, Repr

namespace AccessTokenMember

def xmlName : AccessTokenMember → CStr
  | accessTokenId => bytes "access-token-id"
  | expiration => bytes "expiration"
  | maxUploads => bytes "max-uploads"
  | maxDownloads => bytes "max-downloads"
  | source => bytes "source"
  | contentLengthRange => bytes "content-length-range"
  | uid => bytes "uid"
  | objectId => bytes "object-id"
  | path => bytes "path"

/-- The sequence of the schema. -/
def names : ChildNames AccessTokenMember where
  all := [accessTokenId, expiration, maxUploads, maxDownloads, source, contentLengthRange, uid,
    objectId, path]
  xmlName := xmlName
  complete part := by cases part <;> decide
  nodup := by decide +kernel
  isName part := by cases part <;> decide +kernel

end AccessTokenMember

/-- `Atmos_accessTokenType`; the pointer to a source may be null, the range is part
of the struct. -/
structure AtmosAccessTokenType where
  accessTokenId : Option CStr
  expiration : Member Int64
  maxUploads : Member Int64
  maxDownloads : Member Int64
  source : Option AtmosSourceType
  contentLengthRange : AtmosContentLengthRangeType
  uid : Option CStr
  objectId : Option CStr
  path : Option CStr

namespace AtmosAccessTokenType

def init : AtmosAccessTokenType := ⟨none, .init, .init, .init, none, .init, none, none, none⟩

/-- What `_bind` does with a child. A source that is there already is initialised
again, a range is not, and other children are skipped. -/
def bindChild (self : AtmosAccessTokenType) (child : Tree) : AtmosAccessTokenType :=
  match AccessTokenMember.names.find child.name with
  | some .accessTokenId => { self with accessTokenId := some child.content }
  | some .expiration => { self with expiration := .bindDateTime child.content }
  | some .maxUploads => { self with maxUploads := self.maxUploads.bindInt child.content }
  | some .maxDownloads => { self with maxDownloads := self.maxDownloads.bindInt child.content }
  | some .source => { self with source := some (.bind .init child) }
  | some .contentLengthRange =>
      { self with contentLengthRange := self.contentLengthRange.bind child }
  | some .uid => { self with uid := some child.content }
  | some .objectId => { self with objectId := some child.content }
  | some .path => { self with path := some child.content }
  | none => self

def bind (self : AtmosAccessTokenType) (node : Tree) : AtmosAccessTokenType :=
  bindChildren bindChild self node

end AtmosAccessTokenType

/-! ## Real values -/

/-- A text that is a number, with or without a sign, in the range of 64 bits. -/
def IsNumber (text : CStr) (n : Int64) : Prop :=
  unsigned text ≠ [] ∧ (∀ b ∈ unsigned text, isDigit b = true) ∧
    n.toInt = if text.head? = some 45 then -(readDigits (unsigned text) : Int)
      else readDigits (unsigned text)

/-- The fraction of a second, if there is one. -/
def IsFraction (s : CStr) : Prop :=
  s = [] ∨ ∃ digits, digits ≠ [] ∧ (∀ b ∈ digits, isDigit b = true) ∧ s = 46 :: digits

/-- A text that is a timestamp in GMT, `YYYY-MM-DDThh:mm:ssZ` with or without a
fraction: what it says are date and time of the instant. -/
def IsTimestamp (text : CStr) (instant : Int64) : Prop :=
  ∃ tm fraction, gmtimeR instant = some tm ∧
    (0 ≤ 1900 + tm.tmYear.toInt ∧ 1900 + tm.tmYear.toInt ≤ 9999) ∧ IsFraction fraction ∧
    text = stamp 4 tm ++ fraction ++ [90]

/-- A member has its flag if the text of its element is a real value, and then it
has this value. -/
def Reflects (isValue : CStr → Int64 → Prop) (text : CStr) (m : Member Int64) : Prop :=
  (m.set ≠ 0 ↔ ∃ n, isValue text n) ∧ ∀ n, isValue text n → m.value = n

/-- A text with something else than a number at its start. -/
def StartsNoNumber (text : CStr) : Prop :=
  text.dropWhile isSpace ≠ [] ∧ (unsigned (text.dropWhile isSpace)).takeWhile isDigit = []

/-! ## One element -/

/-- The cases of `sscanf`: a blank text sets the flag, one with no number at its
start does nothing, and a number is stored. -/
theorem bindInt_eq (m : Member Int64) (text : CStr) :
    m.bindInt text =
      if text.dropWhile isSpace = [] then ⟨m.value, 1⟩
      else if (unsigned (text.dropWhile isSpace)).takeWhile isDigit = [] then m
      else ⟨strtoll (text.dropWhile isSpace), 1⟩ := by
  rw [Member.bindInt, sscanf]
  split
  · rfl
  · split
    · rfl
    · rfl

/-- What is known of a text that is a number. -/
theorem IsNumber.parts {text : CStr} {n : Int64} (h : IsNumber text n) :
    text.dropWhile isSpace = text ∧ (unsigned text).takeWhile isDigit ≠ [] ∧ strtoll text = n := by
  obtain ⟨hne, hds, hvalue⟩ := h
  obtain ⟨hdrop, hread⟩ := strtoll_numeral hne hds
  have hmin := n.le_toInt
  have hmax := n.toInt_lt
  have hminValue : Int64.minValue.toInt = -9223372036854775808 := rfl
  have hmaxValue : Int64.maxValue.toInt = 9223372036854775807 := rfl
  refine ⟨hdrop, by rwa [List.takeWhile_eq_self_iff.mpr hds], ?_⟩
  refine hread.trans ((congrArg Int64.ofInt ?_).trans n.ofInt_toInt)
  rw [hvalue]
  by_cases hminus : text.head? = some 45
  · rw [if_pos hminus] at hvalue ⊢
    rw [if_pos hminus, max_eq_left (by omega)]
  · rw [if_neg hminus] at hvalue ⊢
    rw [if_neg hminus, min_eq_left (by omega)]

/-- Such a text is read whole. -/
theorem bindInt_of_isNumber {text : CStr} {n : Int64} (h : IsNumber text n) (m : Member Int64) :
    m.bindInt text = ⟨n, 1⟩ := by
  obtain ⟨hdrop, hdigits, hread⟩ := h.parts
  have htext : text ≠ [] := by
    rintro rfl
    exact h.1 rfl
  rw [bindInt_eq, hdrop, if_neg htext, if_neg hdigits, hread]

theorem bindInt_of_startsNoNumber {text : CStr} (h : StartsNoNumber text) (m : Member Int64) :
    m.bindInt text = m := by
  rw [bindInt_eq, if_neg h.1, if_pos h.2]

/-- An instant is read back from its date and time. -/
theorem bindDateTime_of_isTimestamp {text : CStr} {instant : Int64}
    (h : IsTimestamp text instant) : Member.bindDateTime text = ⟨instant, 1⟩ := by
  obtain ⟨tm, fraction, htm, -, hfraction, rfl⟩ := h
  have hzone : (fraction ++ [90]).takeWhile isDigit = [] := by
    rcases hfraction with rfl | ⟨digits, -, -, rfl⟩
    · rfl
    · rfl
  rw [Member.bindDateTime, List.append_assoc, datetimeParse_stamp 4 tm hzone, timegm_gmtimeR htm]

/-! ## The members -/

/-- The optional members of a policy and of an access token. -/
inductive LimitMember where
  | expiration
  | maxUploads
  | maxDownloads
  deriving DecidableEq, Repr

namespace LimitMember

def xmlName : LimitMember → CStr
  | expiration => bytes "expiration"
  | maxUploads => bytes "max-uploads"
  | maxDownloads => bytes "max-downloads"

/-- The texts of real values. -/
def IsValue : LimitMember → CStr → Int64 → Prop
  | expiration => IsTimestamp
  | maxUploads | maxDownloads => IsNumber

/-- What the binders do with a text. -/
def bind : LimitMember → Member Int64 → CStr → Member Int64
  | expiration => fun _ => Member.bindDateTime
  | maxUploads | maxDownloads => Member.bindInt

/-- A text that is a real value or, for a number, has no number at its start. -/
def Unambiguous (i : LimitMember) (text : CStr) : Prop :=
  (∃ n, i.IsValue text n) ∨ (i ≠ expiration ∧ StartsNoNumber text)

/-- A real value is stored, with its flag. -/
theorem bind_of_isValue {i : LimitMember} {text : CStr} {n : Int64} (h : i.IsValue text n)
    (m : Member Int64) : i.bind m text = ⟨n, 1⟩ := by
  cases i with
  | expiration => exact bindDateTime_of_isTimestamp h
  | maxUploads | maxDownloads => exact bindInt_of_isNumber h m

/-- Any other text that is unambiguous does nothing. -/
theorem bind_of_not_isValue {i : LimitMember} {text : CStr} (h : i.Unambiguous text)
    (hnone : ∀ n, ¬ i.IsValue text n) (m : Member Int64) : i.bind m text = m := by
  rcases h with ⟨n, hn⟩ | ⟨hi, hstart⟩
  · exact absurd hn (hnone n)
  · cases i with
    | expiration => exact absurd rfl hi
    | maxUploads | maxDownloads => exact bindInt_of_startsNoNumber hstart m

/-- An ambiguous text sets the flag. -/
theorem bind_set_of_ambiguous {i : LimitMember} {text : CStr} (h : ¬ i.Unambiguous text)
    (m : Member Int64) : (i.bind m text).set = 1 := by
  have hnumber : i ≠ expiration → (m.bindInt text).set = 1 := by
    intro hi
    rw [bindInt_eq]
    split
    · rfl
    · rename_i hblank
      rw [if_neg fun hdigits => h (Or.inr ⟨hi, hblank, hdigits⟩)]
  cases i with
  | expiration => rfl
  | maxUploads | maxDownloads => exact hnumber (by decide)

end LimitMember

/-- **One element** is treated as it should be exactly if its text is
unambiguous. -/
theorem bind_reflects_iff (i : LimitMember) {m : Member Int64} (hm : m.set = 0) (text : CStr) :
    Reflects i.IsValue text (i.bind m text) ↔ i.Unambiguous text := by
  constructor
  · intro h
    by_contra hambiguous
    have hset := LimitMember.bind_set_of_ambiguous hambiguous m
    exact hambiguous (Or.inl (h.1.mp (by rw [hset]; decide)))
  · intro h
    by_cases hsome : ∃ n, i.IsValue text n
    · obtain ⟨n, hn⟩ := hsome
      have hset : (i.bind m text).set = 1 := by rw [LimitMember.bind_of_isValue hn]
      refine ⟨iff_of_true ?_ ⟨n, hn⟩, fun k hk => by rw [LimitMember.bind_of_isValue hk]⟩
      rw [hset]
      decide
    · have hnone := not_exists.mp hsome
      rw [LimitMember.bind_of_not_isValue h hnone]
      exact ⟨iff_of_false (not_not_intro hm) hsome, fun n hn => absurd hn (hnone n)⟩

/-! ## Documents -/

/-- The texts of the elements of a member, in a policy or an access token. -/
def memberTexts (i : LimitMember) (node : Tree) : List CStr :=
  (node.elements.filter fun child => child.name = i.xmlName).map Tree.content

/-- A member has its flag if one of some texts is a real value, and then it has the
last value among them. -/
def ReflectsAll (isValue : CStr → Int64 → Prop) (texts : List CStr) (m : Member Int64) : Prop :=
  (m.set ≠ 0 ↔ ∃ text ∈ texts, ∃ n, isValue text n) ∧
    ∀ before text after n, texts = before ++ text :: after → isValue text n →
      (∀ other ∈ after, ∀ k, ¬ isValue other k) → m.value = n

/-- For one text this is what is wanted of one element. -/
theorem reflectsAll_singleton_iff {isValue : CStr → Int64 → Prop} {text : CStr}
    {m : Member Int64} : ReflectsAll isValue [text] m ↔ Reflects isValue text m := by
  constructor
  · intro h
    refine ⟨h.1.trans (by simp), fun n hn => ?_⟩
    exact h.2 [] text [] n rfl hn fun _ hother => absurd hother List.not_mem_nil
  · intro h
    refine ⟨h.1.trans (by simp), ?_⟩
    intro before text' after n hsplit hn _
    cases before with
    | nil =>
        obtain ⟨rfl, -⟩ := List.cons.inj hsplit
        exact h.2 n hn
    | cons first before =>
        have hlength := congrArg List.length hsplit
        simp at hlength

/-- A text among others is the last one, or in front of it. -/
theorem concat_eq_append_cons {α : Type} {texts before after : List α} {text other : α}
    (h : texts ++ [text] = before ++ other :: after) :
    (after = [] ∧ text = other) ∨
      ∃ behind, after = behind ++ [text] ∧ texts = before ++ other :: behind := by
  rcases List.eq_nil_or_concat' after with rfl | ⟨behind, last, rfl⟩
  · obtain ⟨-, hsame⟩ := List.append_inj' h rfl
    exact Or.inl ⟨rfl, List.singleton_inj.mp hsame⟩
  · rw [← List.cons_append, ← List.append_assoc] at h
    obtain ⟨hearlier, hsame⟩ := List.append_inj' h rfl
    obtain rfl := List.singleton_inj.mp hsame
    exact Or.inr ⟨behind, rfl, hearlier⟩

/-- One text more. -/
theorem reflectsAll_concat {i : LimitMember} {texts : List CStr} {m : Member Int64}
    (h : ReflectsAll i.IsValue texts m) {text : CStr} (htext : i.Unambiguous text) :
    ReflectsAll i.IsValue (texts ++ [text]) (i.bind m text) := by
  by_cases hsome : ∃ n, i.IsValue text n
  · obtain ⟨n, hn⟩ := hsome
    have hset : (i.bind m text).set = 1 := by rw [LimitMember.bind_of_isValue hn]
    refine ⟨iff_of_true (by rw [hset]; decide) ⟨text, by simp, n, hn⟩, ?_⟩
    intro before other after k hsplit hk hlast
    rcases concat_eq_append_cons hsplit with ⟨-, rfl⟩ | ⟨behind, rfl, -⟩
    · rw [LimitMember.bind_of_isValue hk]
    · -- the last text has a value
      exact absurd hn (hlast text (by simp) n)
  · have hnone := not_exists.mp hsome
    rw [LimitMember.bind_of_not_isValue htext hnone]
    constructor
    · rw [h.1]
      constructor
      · rintro ⟨other, hother, hvalue⟩
        exact ⟨other, List.mem_append_left _ hother, hvalue⟩
      · rintro ⟨other, hother, hvalue⟩
        rcases List.mem_append.mp hother with hother | hother
        · exact ⟨other, hother, hvalue⟩
        · obtain rfl := List.mem_singleton.mp hother
          exact absurd hvalue hsome
    · intro before other after k hsplit hk hlast
      rcases concat_eq_append_cons hsplit with ⟨-, rfl⟩ | ⟨behind, rfl, hearlier⟩
      · exact absurd hk (hnone k)
      · exact h.2 before other behind k hearlier hk
          fun late hlate => hlast late (List.mem_append_left _ hlate)

/-- **Unambiguous texts** are all treated as they should be. -/
theorem reflectsAll_foldl {i : LimitMember} {texts : List CStr}
    (h : ∀ text ∈ texts, i.Unambiguous text) :
    ReflectsAll i.IsValue texts (texts.foldl i.bind .init) := by
  induction texts using List.reverseRecOn with
  | nil =>
      refine ⟨iff_of_false (not_not_intro rfl) (by simp), ?_⟩
      intro before text after n hsplit
      exact absurd hsplit.symm (List.append_ne_nil_of_right_ne_nil _ (List.cons_ne_nil _ _))
  | append_singleton texts text ih =>
      rw [List.foldl_append]
      exact reflectsAll_concat (ih fun other hother => h other (List.mem_append_left _ hother))
        (h text (by simp))

/-! ## The two types -/

/-- A binder that sends the elements of a member to it. -/
theorem view_bindChildren {σ : Type} {step : σ → Tree → σ} {view : σ → Member Int64}
    {i : LimitMember}
    (h : ∀ st child, view (step st child) =
      if child.name = i.xmlName then i.bind (view st) child.content else view st)
    (st : σ) (node : Tree) :
    view (bindChildren step st node) = (memberTexts i node).foldl i.bind (view st) := by
  rw [bindChildren_eq, memberTexts]
  induction node.elements generalizing st with
  | nil => rfl
  | cons child children ih =>
      rw [List.foldl_cons, ih, h]
      by_cases hname : child.name = i.xmlName
      · rw [if_pos hname, List.filter_cons_of_pos (by simpa using hname), List.map_cons,
          List.foldl_cons]
      · rw [if_neg hname, List.filter_cons_of_neg (by simpa using hname)]

namespace ChildNames

variable {ι : Type} (names : ChildNames ι)

/-- The chain of comparisons finds a member by its name alone. -/
theorem find_eq_some_iff {name : CStr} {i : ι} :
    names.find name = some i ↔ name = names.xmlName i := by
  constructor
  · intro h
    have hname : (names.xmlName i == name) = true :=
      @List.find?_some _ (fun j => names.xmlName j == name) _ _ h
    exact (beq_iff_eq.mp hname).symm
  · rintro rfl
    exact names.find_xmlName i

end ChildNames

/-- The member in a policy. -/
def AtmosPolicyType.limit (self : AtmosPolicyType) : LimitMember → Member Int64
  | .expiration => self.expiration
  | .maxUploads => self.maxUploads
  | .maxDownloads => self.maxDownloads

/-- The member in an access token. -/
def AtmosAccessTokenType.limit (self : AtmosAccessTokenType) : LimitMember → Member Int64
  | .expiration => self.expiration
  | .maxUploads => self.maxUploads
  | .maxDownloads => self.maxDownloads

def LimitMember.inPolicy : LimitMember → PolicyMember
  | expiration => .expiration
  | maxUploads => .maxUploads
  | maxDownloads => .maxDownloads

def LimitMember.inAccessToken : LimitMember → AccessTokenMember
  | expiration => .expiration
  | maxUploads => .maxUploads
  | maxDownloads => .maxDownloads

theorem AtmosPolicyType.limit_bindChild (self : AtmosPolicyType) (child : Tree)
    (i : LimitMember) : (self.bindChild child).limit i =
      if child.name = i.xmlName then i.bind (self.limit i) child.content else self.limit i := by
  have hname : i.xmlName = PolicyMember.names.xmlName i.inPolicy := by cases i <;> rfl
  rw [hname, ← if_congr PolicyMember.names.find_eq_some_iff rfl rfl, bindChild]
  cases PolicyMember.names.find child.name with
  | none => rfl
  | some j => cases j <;> cases i <;> rfl

theorem AtmosAccessTokenType.limit_bindChild (self : AtmosAccessTokenType) (child : Tree)
    (i : LimitMember) : (self.bindChild child).limit i =
      if child.name = i.xmlName then i.bind (self.limit i) child.content else self.limit i := by
  have hname : i.xmlName = AccessTokenMember.names.xmlName i.inAccessToken := by
    cases i <;> rfl
  rw [hname, ← if_congr AccessTokenMember.names.find_eq_some_iff rfl rfl, bindChild]
  cases AccessTokenMember.names.find child.name with
  | none => rfl
  | some j => cases j <;> cases i <;> rfl

/-- A member of a document that was bound is what its texts make of it, in a policy
and in an access token. -/
theorem limit_bind (node : Tree) (i : LimitMember) :
    (AtmosPolicyType.init.bind node).limit i = (memberTexts i node).foldl i.bind .init ∧
      (AtmosAccessTokenType.init.bind node).limit i =
        (memberTexts i node).foldl i.bind .init := by
  have hpolicy := @view_bindChildren _ AtmosPolicyType.bindChild (·.limit i) i
    (fun st child => st.limit_bindChild child i) .init node
  have htoken := @view_bindChildren _ AtmosAccessTokenType.bindChild (·.limit i) i
    (fun st child => st.limit_bindChild child i) .init node
  cases i <;> exact ⟨hpolicy, htoken⟩

/-- **Optional members.**  In a document whose elements of a member have unambiguous
texts the member has its flag exactly if there is a real value, and has the last one.
With one such element, as the schema has it, no other text does. -/
theorem optional_members_iff (i : LimitMember) (node : Tree) {m : Member Int64}
    (hm : m = (AtmosPolicyType.init.bind node).limit i ∨
      m = (AtmosAccessTokenType.init.bind node).limit i) :
    ((∀ text ∈ memberTexts i node, i.Unambiguous text) →
      ReflectsAll i.IsValue (memberTexts i node) m) ∧
      ((memberTexts i node).length ≤ 1 →
        (ReflectsAll i.IsValue (memberTexts i node) m ↔
          ∀ text ∈ memberTexts i node, i.Unambiguous text)) := by
  obtain ⟨hpolicy, htoken⟩ := limit_bind node i
  have hfold : m = (memberTexts i node).foldl i.bind .init := by
    rcases hm with rfl | rfl
    · exact hpolicy
    · exact htoken
  rw [hfold]
  refine ⟨reflectsAll_foldl, fun hone => ⟨fun h => ?_, reflectsAll_foldl⟩⟩
  intro text htext
  obtain ⟨text', htexts⟩ : ∃ text', memberTexts i node = [text'] :=
    List.length_eq_one_iff.mp (by have := List.length_pos_of_mem htext; omega)
  rw [htexts] at h htext
  obtain rfl := List.mem_singleton.mp htext
  exact (bind_reflects_iff i rfl text).mp (reflectsAll_singleton_iff.mp h)

/-- A policy with an expiry and no limit that could be read. -/
def limitedPolicy (expiration maxUploads : CStr) : Tree :=
  .element (bytes "policy") []
    [.element (bytes "expiration") [] [.text expiration],
      .element (bytes "max-uploads") [] [.text maxUploads]]

theorem isTimestamp_december : IsTimestamp (bytes "2012-12-01T00:00:00.25Z") 1354320000 :=
  ⟨⟨0, 0, 0, 1, 11, 112⟩, bytes ".25", by decide +kernel, by decide,
    Or.inr ⟨bytes "25", by decide, by decide +kernel, by decide⟩, by decide +kernel⟩

/-- A timestamp with a fraction, and a text that is no number. -/
theorem optional_members_iff_december :
    ReflectsAll IsTimestamp [bytes "2012-12-01T00:00:00.25Z"]
        ((AtmosPolicyType.init.bind
          (limitedPolicy (bytes "2012-12-01T00:00:00.25Z") (bytes "none"))).limit .expiration) ∧
      ReflectsAll IsNumber [bytes "none"]
        ((AtmosPolicyType.init.bind
          (limitedPolicy (bytes "2012-12-01T00:00:00.25Z") (bytes "none"))).limit
            .maxUploads) := by
  generalize hnode : limitedPolicy (bytes "2012-12-01T00:00:00.25Z") (bytes "none") = node
  have hexpiration : memberTexts .expiration node = [bytes "2012-12-01T00:00:00.25Z"] := by
    rw [← hnode]
    decide +kernel
  have huploads : memberTexts .maxUploads node = [bytes "none"] := by
    rw [← hnode]
    decide +kernel
  have hreal := (@optional_members_iff .expiration node _ (Or.inl rfl)).1
  have hnone := (@optional_members_iff .maxUploads node _ (Or.inl rfl)).1
  rw [hexpiration] at hreal
  rw [huploads] at hnone
  constructor
  · apply hreal
    intro text htext
    obtain rfl := List.mem_singleton.mp htext
    exact Or.inl ⟨1354320000, isTimestamp_december⟩
  · apply hnone
    intro text htext
    obtain rfl := List.mem_singleton.mp htext
    exact Or.inr ⟨by decide, by decide +kernel, by decide +kernel⟩

/-- **A blank limit is a limit of zero**, and an expiry in another zone is taken for
one in GMT. -/
theorem blank_limit_is_zero :
    ∃ node : Tree, memberTexts .expiration node = [bytes "2012-12-01T00:00:00+05:00"] ∧
      memberTexts .maxUploads node = [[]] ∧
      (AtmosPolicyType.init.bind node).maxUploads = ⟨0, 1⟩ ∧
      (AtmosPolicyType.init.bind node).expiration = ⟨1354320000, 1⟩ ∧
      ¬ ReflectsAll IsNumber [[]] (AtmosPolicyType.init.bind node).maxUploads ∧
      ¬ ReflectsAll IsTimestamp [bytes "2012-12-01T00:00:00+05:00"]
        (AtmosPolicyType.init.bind node).expiration := by
  have huploads : (AtmosPolicyType.init.bind
      (limitedPolicy (bytes "2012-12-01T00:00:00+05:00") [])).maxUploads = ⟨0, 1⟩ := by
    decide +kernel
  have hexpiration : (AtmosPolicyType.init.bind
      (limitedPolicy (bytes "2012-12-01T00:00:00+05:00") [])).expiration = ⟨1354320000, 1⟩ := by
    decide +kernel
  refine ⟨limitedPolicy (bytes "2012-12-01T00:00:00+05:00") [], by decide +kernel,
    by decide +kernel, huploads, hexpiration, ?_, ?_⟩
  · intro h
    obtain ⟨n, hne, -⟩ := (reflectsAll_singleton_iff.mp h).1.mp (by rw [huploads]; decide)
    exact hne rfl
  · intro h
    obtain ⟨n, tm, fraction, -, -, -, htext⟩ :=
      (reflectsAll_singleton_iff.mp h).1.mp (by rw [hexpiration]; decide)
    have hlast := congrArg List.getLast? htext
    rw [List.getLast?_concat] at hlast
    exact absurd hlast (by decide +kernel)

end Atmos
