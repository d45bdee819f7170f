import Atmos.MemberRoundTrip
import Atmos.PolicyXml

/-!
# Policies that are read back

What `_bind` makes of the element that `_unbind` writes, for each type of a
policy, and what `_unmarshal` makes of the document that `_marshal` writes.

* `AtmosPolicyType.bind_unbind` — every member of a policy is read back, strings
  as `libxml2` takes them;
* `policy_round_trip` — a well-formed policy is read back as it is.
-/

namespace Atmos

open ByteText CivilTime XmlDocument

variable {xml : XmlWriter}

/-! ## Types -/

/-- The arrays that are read for some arrays. -/
def StringArrays.reread {ι : Type} (xml : XmlWriter) (arrays : StringArrays ι) : StringArrays ι :=
  fun i => rereadStrings xml (arrays i)

theorem StringArrays.bindChildren_unbind {ι : Type} [DecidableEq ι] {names : ChildNames ι}
    {arrays : StringArrays ι} {node : Tree}
    (h : List.Forall₂ (Rereads xml) (arrays.unbind names) node.elements) :
    bindChildren (bindChild names) .init node = arrays.reread xml := by
  rw [bindChildren_eq, foldl_bindChild names (List.Nodup.of_map _ names.nodup) h]
  funext i
  rw [if_pos (names.complete i)]
  rfl

/-- The number that is read for an optional one. -/
def Member.reread {α : Type} [OfNat α 0] (read : α → α) (m : Member α) : Member α :=
  if m.set ≠ 0 then ⟨read m.value, 1⟩ else .init

namespace AtmosSourceType

def reread (xml : XmlWriter) (self : AtmosSourceType) : AtmosSourceType := ⟨self.rules.reread xml⟩

theorem bind_unbind {name : CStr} {self : AtmosSourceType} {node : Tree}
    (h : Rereads xml (self.unbind name) node) : init.bind node = self.reread xml := by
  obtain ⟨-, -, hchildren⟩ := h.node_spec
  exact congrArg AtmosSourceType.mk (StringArrays.bindChildren_unbind hchildren)

theorem unbind_valid {ok : CStr → Prop} {name : CStr} (hname : IsName name)
    {self : AtmosSourceType} (hok : ∀ rule s, some s ∈ self.rules rule → ok s) :
    (self.unbind name).Valid ok :=
  .node hname (fun _ ha => nomatch ha) List.nodup_nil (StringArrays.unbind_valid _ hok)

end AtmosSourceType

namespace AtmosContentLengthRangeType

def reread (self : AtmosContentLengthRangeType) : AtmosContentLengthRangeType :=
  ⟨⟨self.«from».value, 1⟩, ⟨self.«to».value, 1⟩⟩

theorem bind_unbind {name : CStr} {self : AtmosContentLengthRangeType} {node : Tree}
    (h : Rereads xml (self.unbind name) node) : init.bind node = self.reread := by
  obtain ⟨-, hprop, -⟩ := h.node_spec
  have hne : bytes "to" ≠ bytes "from" := by decide +kernel
  rw [Member.unbindRequiredInt_eq, Member.unbindRequiredInt_eq] at hprop
  have hfrom : node.getProp (bytes "from") = some (int64Text self.«from».value) := by
    rw [hprop, List.lookup_append, lookup_unbindString, Option.some_or]
  have hto : node.getProp (bytes "to") = some (int64Text self.«to».value) := by
    rw [hprop, List.lookup_append, lookup_unbindString_of_ne hne, Option.none_or,
      lookup_unbindString]
  rw [bind, hfrom, hto, Option.elim_some, Option.elim_some, Member.bindInt_int64Text,
    Member.bindInt_int64Text]
  rfl

theorem unbind_valid {ok : CStr → Prop} {name : CStr} (hname : IsName name)
    {self : AtmosContentLengthRangeType} : (self.unbind name).Valid ok := by
  have hnames : IsName (bytes "from") ∧ IsName (bytes "to") ∧ bytes "to" ≠ bytes "from" := by
    decide +kernel
  have htext : ∀ n value, some (int64Text n) = some value → IsText value := by
    rintro n value ⟨⟩
    exact (isPlain_int64Text n).1
  obtain ⟨hattributes, hnodup⟩ := valid_unbindString hnames (htext self.«from».value)
    (htext self.«to».value)
  exact .node hname hattributes hnodup fun _ hb => nomatch hb

end AtmosContentLengthRangeType

namespace AtmosFormFieldType

def reread (xml : XmlWriter) (self : AtmosFormFieldType) : AtmosFormFieldType where
  tests := self.tests.reread xml
  name := self.name
  optional := self.optional.reread fun value => if value ≠ 0 then 1 else 0

theorem bind_unbind {name : CStr} {self : AtmosFormFieldType} {node : Tree}
    (h : Rereads xml (self.unbind name) node) : init.bind node = self.reread xml := by
  obtain ⟨-, hprop, hchildren⟩ := h.node_spec
  have htests := StringArrays.bindChildren_unbind hchildren
  have hname : node.getProp (bytes "name") = self.name := by
    have hne : bytes "name" ≠ bytes "optional" := by decide +kernel
    rw [hprop, List.lookup_append, lookup_unbindString, Member.unbindBoolean_eq,
      lookup_unbindString_of_ne hne, Option.or_none]
  have hoptional : node.getProp (bytes "optional") = self.optional.present.map booleanText := by
    have hne : bytes "optional" ≠ bytes "name" := by decide +kernel
    rw [hprop, List.lookup_append, lookup_unbindString_of_ne hne, Option.none_or,
      Member.unbindBoolean_eq, lookup_unbindString]
  have hread : (self.optional.present.map booleanText).elim init.optional Member.bindBoolean =
      self.optional.reread fun value => if value ≠ 0 then 1 else 0 := by
    unfold Member.present Member.reread
    split
    · exact Member.bindBoolean_booleanText self.optional.value
    · rfl
  rw [bind, hname, hoptional, hread, reread, ← htests]
  cases self.name <;> rfl

theorem unbind_valid {ok : CStr → Prop} {name : CStr} (hname : IsName name)
    {self : AtmosFormFieldType} (hok : ∀ test s, some s ∈ self.tests test → ok s)
    (htext : ∀ s, self.name = some s → IsText s) : (self.unbind name).Valid ok := by
  have hnames : IsName (bytes "name") ∧ IsName (bytes "optional") ∧
      bytes "optional" ≠ bytes "name" := by decide +kernel
  have hboolean : ∀ value, self.optional.present.map booleanText = some value → IsText value := by
    intro value hvalue
    obtain ⟨b, -, rfl⟩ := Option.map_eq_some_iff.mp hvalue
    exact isText_booleanText b
  obtain ⟨hattributes, hnodup⟩ := valid_unbindString hnames htext hboolean
  rw [unbind, Member.unbindBoolean_eq]
  exact .node hname hattributes hnodup (StringArrays.unbind_valid _ hok)

end AtmosFormFieldType

namespace AtmosPolicyType

open PolicyMember (xmlName)

def reread (xml : XmlWriter) (platform : TimePlatform) (self : AtmosPolicyType) :
    AtmosPolicyType where
  expiration := self.expiration.reread fun time => datetimeParse (dateTimeText platform time)
  maxUploads := self.maxUploads.reread id
  maxDownloads := self.maxDownloads.reread id
  source := self.source.map (·.reread xml)
  contentLengthRange := self.contentLengthRange.map (·.reread)
  formField := self.formField.map (·.reread xml)

section Sections

variable {trees : List Tree} {name : CStr}

/-- The part of a document that an optional value wrote. -/
theorem foldl_member (put : Member Int64 → AtmosPolicyType) (read : Int64 → Int64)
    {m : Member Int64} {text : CStr}
    (h : List.Forall₂ (Rereads xml) (if m.set ≠ 0 then [.value name text] else []) trees)
    (hput : ∀ child, child.name = name → child.content = xml.textOf text →
      (put .init).bindChild child = put ⟨read m.value, 1⟩) :
    trees.foldl bindChild (put .init) = put (m.reread read) := by
  unfold Member.reread
  split at h
  · rename_i hset
    obtain ⟨child, rest, hchild, hrest, rfl⟩ := List.forall₂_cons_left_iff.mp h
    obtain rfl := List.forall₂_nil_left_iff.mp hrest
    obtain ⟨hname, hcontent⟩ := hchild.value_spec
    rw [if_pos hset]
    exact hput child hname hcontent
  · rename_i hset
    obtain rfl := List.forall₂_nil_left_iff.mp h
    rw [if_neg hset]
    rfl

/-- The part of a document that a pointer wrote. -/
theorem foldl_pointer {α β : Type} (put : Option β → AtmosPolicyType) {pointer : Option α}
    {unbind : α → Built} {reread : α → β}
    (h : List.Forall₂ (Rereads xml) (pointer.map unbind).toList trees)
    (hput : ∀ x child, Rereads xml (unbind x) child →
      (put none).bindChild child = put (some (reread x))) :
    trees.foldl bindChild (put none) = put (pointer.map reread) := by
  cases pointer with
  | none =>
      obtain rfl := List.forall₂_nil_left_iff.mp h
      rfl
  | some x =>
      obtain ⟨child, rest, hchild, hrest, rfl⟩ := List.forall₂_cons_left_iff.mp h
      obtain rfl := List.forall₂_nil_left_iff.mp hrest
      exact hput x child hchild

/-- A child goes to the member of its name. -/
theorem find_of_name {child : Tree} {part : PolicyMember} (h : child.name = xmlName part) :
    PolicyMember.names.find child.name = some part := by
  rw [h]
  exact PolicyMember.names.find_xmlName part

/-- The part of a document that the form fields wrote. -/
theorem foldl_formField {fields : List AtmosFormFieldType}
    (h : List.Forall₂ (Rereads xml) (fields.map (·.unbind (xmlName .formField))) trees)
    (st : AtmosPolicyType) : trees.foldl bindChild st =
      { st with formField := st.formField ++ fields.map (·.reread xml) } := by
  induction fields generalizing trees st with
  | nil =>
      obtain rfl := List.forall₂_nil_left_iff.mp h
      rw [List.map_nil, List.append_nil]
      rfl
  | cons field fields ih =>
      obtain ⟨child, rest, hchild, hrest, rfl⟩ := List.forall₂_cons_left_iff.mp h
      have hname := find_of_name hchild.node_spec.1
      rw [List.foldl_cons, ih hrest, bindChild, hname]
      dsimp only
      rw [AtmosFormFieldType.bind_unbind hchild, List.append_assoc]
      rfl

end Sections

/-- **Every member of a policy is read back**, strings as `libxml2` takes them. -/
theorem bind_unbind (hxml : xml.Documented) {platform : TimePlatform} {rootName : CStr}
    {self : AtmosPolicyType} {node : Tree} (h : Rereads xml (self.unbind platform rootName) node) :
    init.bind node = self.reread xml platform := by
  obtain ⟨-, -, hchildren⟩ := h.node_spec
  obtain ⟨front, fields, hnode, hfront, hfields⟩ := forall₂_append_left hchildren
  obtain ⟨front, ranges, rfl, hfront, hranges⟩ := forall₂_append_left hfront
  obtain ⟨front, sources, rfl, hfront, hsources⟩ := forall₂_append_left hfront
  obtain ⟨front, downloads, rfl, hfront, hdownloads⟩ := forall₂_append_left hfront
  obtain ⟨expirations, uploads, rfl, hexpirations, huploads⟩ := forall₂_append_left hfront
  have hint : ∀ n, xml.textOf (int64Text n) = int64Text n := fun n =>
    hxml.textOf_of_isPlain (isPlain_int64Text n)
  have htime : ∀ time, xml.textOf (dateTimeText platform time) = dateTimeText platform time :=
    fun _ => hxml.textOf_of_isPlain (isPlain_strftime platform _)
  -- every section of the document fills one member and leaves the others alone
  have hfirst := foldl_member (fun m => ⟨m, .init, .init, none, none, []⟩)
    (fun time => datetimeParse (dateTimeText platform time)) hexpirations
    (fun child hname hcontent => by rw [bindChild, find_of_name hname, hcontent, htime]; rfl)
  generalize hexpiration : self.expiration.reread
    (fun time => datetimeParse (dateTimeText platform time)) = expiration at hfirst
  have hsecond := foldl_member (fun m => ⟨expiration, m, .init, none, none, []⟩) id huploads
    (fun child hname hcontent => by
      rw [bindChild, find_of_name hname, hcontent, hint]
      dsimp only
      rw [Member.bindInt_int64Text]
      rfl)
  have hthird := foldl_member
    (fun m => ⟨expiration, self.maxUploads.reread id, m, none, none, []⟩) id hdownloads
    (fun child hname hcontent => by
      rw [bindChild, find_of_name hname, hcontent, hint]
      dsimp only
      rw [Member.bindInt_int64Text]
      rfl)
  have hfourth := foldl_pointer
    (fun source => ⟨expiration, self.maxUploads.reread id, self.maxDownloads.reread id, source,
      none, []⟩) hsources
    (fun source child hchild => by
      rw [bindChild, find_of_name hchild.node_spec.1]
      dsimp only
      rw [AtmosSourceType.bind_unbind hchild])
  have hfifth := foldl_pointer
    (fun range => ⟨expiration, self.maxUploads.reread id, self.maxDownloads.reread id,
      self.source.map (·.reread xml), range, []⟩) hranges
    (fun range child hchild => by
      rw [bindChild, find_of_name hchild.node_spec.1]
      dsimp only
      rw [AtmosContentLengthRangeType.bind_unbind hchild])
  have hinit : init = ⟨.init, .init, .init, none, none, []⟩ := rfl
  rw [bind, bindChildren_eq, hnode, List.foldl_append, List.foldl_append, List.foldl_append,
    List.foldl_append, List.foldl_append, hinit, hfirst, hsecond, hthird, hfourth, hfifth,
    foldl_formField hfields, ← hexpiration]
  rfl

/-! ## Strings -/

/-- A string of a policy that is the content of an element. -/
def HasText (self : AtmosPolicyType) (s : CStr) : Prop :=
  (∃ source ∈ self.source, ∃ rule, some s ∈ source.rules rule) ∨
    ∃ field ∈ self.formField, ∃ test, some s ∈ field.tests test

/-- A string of a policy that is an attribute. -/
def HasName (self : AtmosPolicyType) (s : CStr) : Prop :=
  ∃ field ∈ self.formField, field.name = some s

/-- The element of a policy can be written where its strings can. -/
theorem unbind_valid {ok : CStr → Prop} (hok : ∀ s, IsPlain s → ok s) (platform : TimePlatform)
    {rootName : CStr} (hroot : IsName rootName) {self : AtmosPolicyType}
    (htexts : ∀ s, self.HasText s → ok s) (hnames : ∀ s, self.HasName s → IsText s) :
    (self.unbind platform rootName).Valid ok := by
  have hname := PolicyMember.names.isName
  refine .node hroot (fun _ ha => nomatch ha) List.nodup_nil ?_
  simp only [List.forall_mem_append]
  refine ⟨⟨⟨⟨⟨?_, ?_⟩, ?_⟩, ?_⟩, ?_⟩, ?_⟩
  · exact valid_value (hname .expiration) (hok _ (isPlain_strftime platform _))
  · exact valid_value (hname .maxUploads) (hok _ (isPlain_int64Text _))
  · exact valid_value (hname .maxDownloads) (hok _ (isPlain_int64Text _))
  · intro b hb
    obtain ⟨source, hsource, rfl⟩ := Option.map_eq_some_iff.mp (Option.mem_toList.mp hb)
    exact AtmosSourceType.unbind_valid (hname .source) fun rule s hs =>
      htexts s (.inl ⟨source, hsource, rule, hs⟩)
  · intro b hb
    obtain ⟨range, -, rfl⟩ := Option.map_eq_some_iff.mp (Option.mem_toList.mp hb)
    exact AtmosContentLengthRangeType.unbind_valid (hname .contentLengthRange)
  · intro b hb
    obtain ⟨field, hfield, rfl⟩ := List.mem_map.mp hb
    exact AtmosFormFieldType.unbind_valid (hname .formField)
      (fun test s hs => htexts s (.inr ⟨field, hfield, test, hs⟩))
      fun s hs => hnames s ⟨field, hfield, hs⟩

/-! ## Documents -/

/-- A document that was written for a policy and can be read gives what the
binders make of the policy's element. -/
theorem eq_reread_of_unmarshal (hxml : xml.Documented) {platform : TimePlatform}
    {self result : AtmosPolicyType} {text : CStr} (htexts : ∀ s, self.HasText s → IsText s)
    (hnames : ∀ s, self.HasName s → IsText s) (hmarshal : self.marshal xml platform = some text)
    (hresult : unmarshal xml text = some result) : result = self.reread xml platform := by
  obtain ⟨node, hnode, rfl⟩ := Option.map_eq_some_iff.mp hresult
  have hroot : IsName (bytes "policy") := by decide +kernel
  have hvalid := unbind_valid (fun s hs => hs.1) platform hroot htexts hnames
  exact bind_unbind hxml (hxml.reread _ text node hvalid hmarshal hnode)

/-- Without references in its strings, the document can be read. -/
theorem unmarshal_of_plain (hxml : xml.Documented) {platform : TimePlatform}
    {self : AtmosPolicyType} {text : CStr} (htexts : ∀ s, self.HasText s → IsPlain s)
    (hnames : ∀ s, self.HasName s → IsText s) (hmarshal : self.marshal xml platform = some text) :
    unmarshal xml text = some (self.reread xml platform) := by
  have hroot : IsName (bytes "policy") := by decide +kernel
  have hvalid := unbind_valid (fun s hs => hs) platform hroot htexts hnames
  obtain ⟨node, hnode⟩ := hxml.readable _ text hvalid hmarshal
  have hresult : unmarshal xml text = some (init.bind node) := by rw [unmarshal, hnode]; rfl
  rw [hresult, eq_reread_of_unmarshal hxml (fun s hs => (htexts s hs).1) hnames hmarshal hresult]

end AtmosPolicyType

/-! ## The round trip -/

/-- What a form field says. -/
@[ext] structure FormFieldValue where
  tests : StringArrays FormFieldTest
  name : Option CStr
  optional : Option Int32

/-- What a policy says: the companions `_set` are left out, as a range has both
its bounds in any case. -/
@[ext] structure PolicyValue where
  expiration : Option Int64
  maxUploads : Option Int64
  maxDownloads : Option Int64
  source : Option (StringArrays SourceRule)
  contentLengthRange : Option (Int64 × Int64)
  formField : List FormFieldValue

def AtmosFormFieldType.toValue (self : AtmosFormFieldType) : FormFieldValue :=
  ⟨self.tests, self.name, self.optional.present⟩

def AtmosPolicyType.toValue (self : AtmosPolicyType) : PolicyValue where
  expiration := self.expiration.present
  maxUploads := self.maxUploads.present
  maxDownloads := self.maxDownloads.present
  source := self.source.map (·.rules)
  contentLengthRange :=
    self.contentLengthRange.map fun range => (range.«from».value, range.«to».value)
  formField := self.formField.map (·.toValue)

/-- The policies that a document can hold: no array has a null pointer in it,
contents have no references, and the year of the expiration has at most four
digits. -/
structure AtmosPolicyType.WellFormed (policy : AtmosPolicyType) : Prop where
  year : policy.expiration.set ≠ 0 → 1 ≤ (dateOf (policy.expiration.value.toInt / 86400)).year ∧
    (dateOf (policy.expiration.value.toInt / 86400)).year ≤ 9999
  rules : ∀ source ∈ policy.source, ∀ rule, none ∉ source.rules rule
  tests : ∀ field ∈ policy.formField, ∀ test, none ∉ field.tests test
  texts : ∀ s, policy.HasText s → IsPlain s
  names : ∀ s, policy.HasName s → IsText s
  optional : ∀ field ∈ policy.formField, ∀ value, field.optional.present = some value →
    value = 0 ∨ value = 1

theorem Member.present_reread {α : Type} [OfNat α 0] (read : α → α) (m : Member α) :
    (m.reread read).present = m.present.map read := by
  have hone : (1 : Int32) ≠ 0 := by decide
  unfold Member.reread Member.present
  by_cases hset : m.set ≠ 0
  · rw [if_pos hset, if_pos hset, if_pos hone]
    rfl
  · rw [if_neg hset, if_neg hset]
    rfl

theorem rereadStrings_eq {strings : List (Option CStr)} (hnull : none ∉ strings)
    (htext : ∀ s, some s ∈ strings → xml.textOf s = s) : rereadStrings xml strings = strings := by
  induction strings with
  | nil => rfl
  | cons s strings ih =>
      have hrest := ih (fun h => hnull (List.mem_cons_of_mem _ h)) fun value h =>
        htext value (List.mem_cons_of_mem _ h)
      cases s with
      | none => exact absurd List.mem_cons_self hnull
      | some value =>
          calc
            rereadStrings xml (some value :: strings)
                = some (xml.textOf value) :: rereadStrings xml strings := rfl
            _ = some value :: strings := by rw [htext value List.mem_cons_self, hrest]

/-- The members of a well-formed policy do not change. -/
theorem AtmosPolicyType.toValue_reread (hxml : xml.Documented) (platform : TimePlatform)
    {self : AtmosPolicyType} (hself : self.WellFormed) :
    (self.reread xml platform).toValue = self.toValue := by
  have htext : ∀ s, self.HasText s → xml.textOf s = s := fun s hs =>
    hxml.textOf_of_isPlain (hself.texts s hs)
  have hrules : ∀ source ∈ self.source, source.rules.reread xml = source.rules := by
    intro source hsource
    funext rule
    exact rereadStrings_eq (hself.rules source hsource rule) fun s hs =>
      htext s (.inl ⟨source, hsource, rule, hs⟩)
  have htests : ∀ field ∈ self.formField, field.tests.reread xml = field.tests := by
    intro field hfield
    funext test
    exact rereadStrings_eq (hself.tests field hfield test) fun s hs =>
      htext s (.inr ⟨field, hfield, test, hs⟩)
  have hexpiration : (self.reread xml platform).expiration.present = self.expiration.present := by
    rw [reread, Member.present_reread]
    unfold Member.present
    split
    · rename_i hset
      rw [Option.map_some,
        datetimeParse_dateTimeText platform (gmtimeR_isSome_of_year (hself.year hset))]
    · rfl
  have hoptional : ∀ field ∈ self.formField,
      field.optional.present.map (fun value => if value ≠ 0 then 1 else 0) =
        field.optional.present := by
    intro field hfield
    cases hpresent : field.optional.present with
    | none => rfl
    | some value =>
        rcases hself.optional field hfield value hpresent with rfl | rfl <;> rfl
  apply PolicyValue.ext
  · exact hexpiration
  · exact (self.maxUploads.present_reread id).trans Option.map_id'
  · exact (self.maxDownloads.present_reread id).trans Option.map_id'
  · cases hsource : self.source with
    | none => simp only [toValue, reread, hsource, Option.map_none]
    | some source =>
        simp only [toValue, reread, hsource, Option.map_some]
        exact congrArg some (hrules source hsource)
  · cases hrange : self.contentLengthRange with
    | none => simp only [toValue, reread, hrange, Option.map_none]
    | some range =>
        simp only [toValue, reread, hrange, Option.map_some]
        rfl
  · refine (List.map_map).trans (List.map_congr_left fun field hfield => ?_)
    apply FormFieldValue.ext
    · exact htests field hfield
    · rfl
    · exact (field.optional.present_reread _).trans (hoptional field hfield)

/-- **Policies make the round trip.** The document that is written for a
well-formed policy is read back as the same policy. -/
theorem policy_round_trip (hxml : xml.Documented) (platform : TimePlatform)
    {self : AtmosPolicyType} {text : CStr} (hself : self.WellFormed)
    (hmarshal : self.marshal xml platform = some text) :
    (AtmosPolicyType.unmarshal xml text).map AtmosPolicyType.toValue = some self.toValue := by
  rw [AtmosPolicyType.unmarshal_of_plain hxml hself.texts hself.names hmarshal, Option.map_some,
    AtmosPolicyType.toValue_reread hxml platform hself]

/-! ### A policy with every member but one -/

def testPattern : CStr := bytes "^(\\w+=\\w+)|((\\w+=\\w+),(\\w+, \\w+))$"

def testSource : AtmosSourceType where
  rules
    | .allow => [some (bytes "127.0.0.0/24")]
    | .disallow => []

def testRedirect : AtmosFormFieldType := ⟨.init, some (bytes "x-emc-redirect-url"), .init⟩

def testMeta : AtmosFormFieldType where
  tests
    | .«matches» => [some testPattern]
    | _ => []
  name := some (bytes "x-emc-meta")
  optional := ⟨1, 1⟩

/-- The policy of the tests. -/
def testPolicy : AtmosPolicyType where
  expiration := ⟨1354363200, 1⟩
  maxUploads := ⟨1, 1⟩
  maxDownloads := .init
  source := some testSource
  contentLengthRange := some ⟨⟨10, 1⟩, ⟨11000, 1⟩⟩
  formField := [testRedirect, testMeta]

def testDocument : CStr := bytes
  "<?xml version=\"1.0\" encoding=\"UTF-8\"?>
<policy>
  <expiration>2012-12-01T12:00:00Z</expiration>
  <max-uploads>1</max-uploads>
  <source>
    <allow>127.0.0.0/24</allow>
  </source>
  <content-length-range from=\"10\" to=\"11000\"/>
  <form-field name=\"x-emc-redirect-url\"/>
  <form-field name=\"x-emc-meta\" optional=\"true\">
    <matches>^(\\w+=\\w+)|((\\w+=\\w+),(\\w+, \\w+))$</matches>
  </form-field>
</policy>
"

/-- The document of the tests as it is read, with the white space between its
elements. -/
def testTree : Tree :=
  .element (bytes "policy") []
    [.text (bytes "\n  "),
      .element (bytes "expiration") [] [.text (bytes "2012-12-01T12:00:00Z")],
      .text (bytes "\n  "),
      .element (bytes "max-uploads") [] [.text (bytes "1")],
      .text (bytes "\n  "),
      .element (bytes "source") []
        [.text (bytes "\n    "),
          .element (bytes "allow") [] [.text (bytes "127.0.0.0/24")],
          .text (bytes "\n  ")],
      .text (bytes "\n  "),
      .element (bytes "content-length-range")
        [(bytes "from", bytes "10"), (bytes "to", bytes "11000")] [],
      .text (bytes "\n  "),
      .element (bytes "form-field") [(bytes "name", bytes "x-emc-redirect-url")] [],
      .text (bytes "\n  "),
      .element (bytes "form-field")
        [(bytes "name", bytes "x-emc-meta"), (bytes "optional", bytes "true")]
        [.text (bytes "\n    "),
          .element (bytes "matches") [] [.text testPattern],
          .text (bytes "\n  ")],
      .text (bytes "\n")]

/-- Years have four digits. -/
def testPlatform : TimePlatform := ⟨4, ⟨0, 0, 0, 0, 0, 0⟩⟩

noncomputable def testLibxml : XmlWriter :=
  .ofDocument (testPolicy.unbind testPlatform (bytes "policy")) testDocument testTree

theorem testTree_rereads :
    Rereads testLibxml (testPolicy.unbind testPlatform (bytes "policy")) testTree := by
  have hexpiration : dateTimeText testPlatform 1354363200 = bytes "2012-12-01T12:00:00Z" := by
    decide +kernel
  have huploads : int64Text 1 = bytes "1" := by decide +kernel
  have hfrom : int64Text 10 = bytes "10" := by decide +kernel
  have hto : int64Text 11000 = bytes "11000" := by decide +kernel
  have hbuilt : testPolicy.unbind testPlatform (bytes "policy") = .node (bytes "policy") []
      [.value (bytes "expiration") (bytes "2012-12-01T12:00:00Z"),
        .value (bytes "max-uploads") (bytes "1"),
        .node (bytes "source") [] [.value (bytes "allow") (bytes "127.0.0.0/24")],
        .node (bytes "content-length-range")
          [(bytes "from", bytes "10"), (bytes "to", bytes "11000")] [],
        .node (bytes "form-field") [(bytes "name", bytes "x-emc-redirect-url")] [],
        .node (bytes "form-field")
          [(bytes "name", bytes "x-emc-meta"), (bytes "optional", bytes "true")]
          [.value (bytes "matches") testPattern]] := by
    rw [← hexpiration, ← huploads, ← hfrom, ← hto]
    rfl
  have hvalue : ∀ name content, ampersand ∉ content →
      Rereads testLibxml (.value name content) (.element name [] [.text content]) :=
    fun _ content hplain => .value (expandAmp_of_notMem hplain) (List.append_nil content)
  rw [hbuilt]
  exact .node (.cons (hvalue _ _ (by decide +kernel)) (.cons (hvalue _ _ (by decide +kernel))
    (.cons (.node (.cons (hvalue _ _ (by decide +kernel)) .nil)) (.cons (.node .nil)
      (.cons (.node .nil)
        (.cons (.node (.cons (hvalue _ _ (by decide +kernel)) .nil)) .nil))))))

theorem testPolicy_texts {s : CStr} (h : testPolicy.HasText s) :
    s = bytes "127.0.0.0/24" ∨ s = testPattern := by
  rcases h with ⟨source, ⟨⟩, rule, hs⟩ | ⟨field, hfield, test, hs⟩
  · cases rule with
    | allow => exact .inl (Option.some.inj (List.mem_singleton.mp hs))
    | disallow => cases hs
  · rcases List.mem_pair.mp hfield with rfl | rfl
    · cases hs
    · cases test with
      | «matches» => exact .inr (Option.some.inj (List.mem_singleton.mp hs))
      | _ => cases hs

theorem testPolicy_names {s : CStr} (h : testPolicy.HasName s) :
    s = bytes "x-emc-redirect-url" ∨ s = bytes "x-emc-meta" := by
  obtain ⟨field, hfield, hs⟩ := h
  rcases List.mem_pair.mp hfield with rfl | rfl
  · exact .inl (Option.some.inj hs).symm
  · exact .inr (Option.some.inj hs).symm

theorem testPolicy_wellFormed : testPolicy.WellFormed where
  year _ := by decide +kernel
  rules := by
    rintro source ⟨⟩ rule
    cases rule <;> simp [testSource]
  tests := by
    intro field hfield test
    rcases List.mem_pair.mp hfield with rfl | rfl
    · exact List.not_mem_nil
    · cases test <;> simp [testMeta]
  texts s hs := by
    have hascii : ∀ s ∈ [bytes "127.0.0.0/24", testPattern],
        ∀ b ∈ s, (32 ≤ b ∧ b < 127) ∧ b ≠ ampersand := by decide +kernel
    exact isPlain_of_ascii (hascii s (List.mem_pair.mpr (testPolicy_texts hs)))
  names s hs := by
    have hascii : ∀ s ∈ [bytes "x-emc-redirect-url", bytes "x-emc-meta"],
        ∀ b ∈ s, 32 ≤ b ∧ b < 127 := by decide +kernel
    exact isText_of_ascii (hascii s (List.mem_pair.mpr (testPolicy_names hs)))
  optional := by
    intro field hfield value hvalue
    rcases List.mem_pair.mp hfield with rfl | rfl
    · cases hvalue
    · exact .inr (Option.some.inj hvalue).symm

theorem policy_round_trip_test :
    (AtmosPolicyType.unmarshal testLibxml testDocument).map AtmosPolicyType.toValue =
      some testPolicy.toValue :=
  policy_round_trip (XmlWriter.ofDocument_documented testTree_rereads) testPlatform
    testPolicy_wellFormed (XmlWriter.dump_ofDocument _ _ _)

end Atmos
