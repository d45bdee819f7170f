import Atmos.OptionalMembers
import Atmos.PolicyRoundTrip
import Atmos.SchemaStructs

/-!
# The structs of the policies

What the templates make of `policy_no_ns.xsd`: the struct of every type of a policy and
of an access token, and the functions of policies as the generated ones.

* `policySchemaDecl_structs` — the structs that are declared for the schema;
* `AtmosPolicyType.unbind_toStruct` — a policy is written as its struct is;
* `AtmosPolicyType.bind_toStruct` — and read as its struct is.
-/

namespace Atmos

open ByteText CivilTime XmlDocument

/-! ## Structs -/

/-- `Atmos_sourceType` -/
def sourceStruct : StructType :=
  .element (bytes "allow") .array .string (.element (bytes "disallow") .array .string .nil)

/-- `Atmos_contentLengthRangeType` -/
def contentLengthRangeStruct : StructType :=
  .prop (bytes "from") true .int (.prop (bytes "to") true .int .nil)

/-- `Atmos_formFieldType` -/
def formFieldStruct : StructType :=
  .element (bytes "matches") .array .string
    (.element (bytes "eq") .array .string
      (.element (bytes "starts-with") .array .string
        (.element (bytes "ends-with") .array .string
          (.element (bytes "contains") .array .string
            (.prop (bytes "name") true .string (.prop (bytes "optional") false .boolean .nil))))))

/-- `Atmos_policyType` -/
def policyStruct : StructType :=
  .element (bytes "expiration") .optional .dateTime
    (.element (bytes "max-uploads") .optional .int
      (.element (bytes "max-downloads") .optional .int
        (.complex (bytes "source") .optional sourceStruct
          (.complex (bytes "content-length-range") .optional contentLengthRangeStruct
            (.complex (bytes "form-field") .array formFieldStruct .nil)))))

/-- `Atmos_accessTokenType` -/
def accessTokenStruct : StructType :=
  .element (bytes "access-token-id") .required .string
    (.element (bytes "expiration") .optional .dateTime
      (.element (bytes "max-uploads") .optional .int
        (.element (bytes "max-downloads") .optional .int
          (.complex (bytes "source") .optional sourceStruct
            (.complex (bytes "content-length-range") .required contentLengthRangeStruct
              (.element (bytes "uid") .optional .string
                (.element (bytes "object-id") .optional .string
                  (.element (bytes "path") .optional .string .nil))))))))

/-- `Atmos_accessTokensListType` -/
def accessTokensListStruct : StructType :=
  .complex (bytes "access-token") .array accessTokenStruct .nil

/-- `Atmos_listAccessTokenResultType` -/
def listAccessTokenResultStruct : StructType :=
  .complex (bytes "access-tokens-list") .required accessTokensListStruct .nil

/-- The header that is generated for the schema. -/
def policyHeader : List (CStr × StructType) :=
  [(bytes "Atmos_sourceType", sourceStruct), (bytes "Atmos_formFieldType", formFieldStruct),
    (bytes "Atmos_contentLengthRangeType", contentLengthRangeStruct),
    (bytes "Atmos_accessTokenType", accessTokenStruct),
    (bytes "Atmos_policyType", policyStruct),
    (bytes "Atmos_accessTokensListType", accessTokensListStruct),
    (bytes "Atmos_listAccessTokenResultType", listAccessTokenResultStruct)]

/-- **The structs of the schema**, as the template puts them out. -/
theorem policySchemaDecl_structs :
    (processComplexTypes policySchemaDecl.toSchema 12 policySchemaDecl.toSchema.root
      policySchemaDecl.toSchema.complexTypes []).bind
        (policySchemaDecl.declareStructs (bytes "Atmos") policySchemaDecl.toSchema.root · []) =
      some policyHeader := by
  decide +kernel

/-! ## Arrays of strings -/

theorem map_texts_array (platform : TimePlatform) (name : CStr) (strings : List (Option CStr)) :
    (Builtin.texts platform .string .array strings).map (.value name) =
      unbindStrings name strings := by
  rw [Builtin.texts, unbindStrings, List.map_filterMap]
  rfl

/-- The chain of comparisons, one name after the other. -/
theorem find?_cons_name {ι : Type} (xmlName : ι → CStr) (i : ι) (others : List ι) (name : CStr) :
    (i :: others).find? (fun i => xmlName i == name) =
      if name = xmlName i then some i else others.find? fun i => xmlName i == name := by
  rw [List.find?_cons]
  by_cases h : name = xmlName i
  · rw [if_pos h, beq_iff_eq.mpr h.symm]
  · rw [if_neg h, beq_eq_false_iff_ne.mpr (Ne.symm h)]

/-! ## Sources -/

namespace AtmosSourceType

def toStruct (self : AtmosSourceType) : sourceStruct.Struct :=
  (self.rules .allow, self.rules .disallow, ())

theorem unbind_toStruct (platform : TimePlatform) (name : CStr) (self : AtmosSourceType) :
    sourceStruct.unbind platform name self.toStruct = self.unbind name := by
  have harrays : self.rules.unbind SourceRule.names =
      unbindStrings (bytes "allow") (self.rules .allow) ++
        (unbindStrings (bytes "disallow") (self.rules .disallow) ++ []) := rfl
  rw [unbind, harrays, ← map_texts_array platform, ← map_texts_array platform]
  rfl

theorem bindChild_toStruct (tmp : Int64) (self : AtmosSourceType) (child : Tree) :
    sourceStruct.bindChild tmp self.toStruct child =
      toStruct ⟨self.rules.bindChild SourceRule.names child⟩ := by
  have hfind : SourceRule.names.find child.name =
      if child.name = bytes "allow" then some .allow
      else if child.name = bytes "disallow" then some .disallow else none := by
    rw [ChildNames.find]
    simp only [SourceRule.names, find?_cons_name, List.find?_nil, SourceRule.xmlName]
  rw [StringArrays.bindChild, hfind]
  dsimp only [sourceStruct, toStruct, StructType.bindChild]
  split_ifs <;> rfl

theorem bind_toStruct (tmp : Int64) (self : AtmosSourceType) (node : Tree) :
    sourceStruct.bind tmp self.toStruct node = (self.bind node).toStruct := by
  have hfold : node.elements.foldl (sourceStruct.bindChild tmp) self.toStruct =
      toStruct ⟨node.elements.foldl (StringArrays.bindChild SourceRule.names) self.rules⟩ :=
    List.foldl_hom (fun rules => toStruct ⟨rules⟩)
      fun rules child => bindChild_toStruct tmp ⟨rules⟩ child
  rw [StructType.bind, bind, bindChildren_eq, bindChildren_eq, hfold]
  rfl

end AtmosSourceType

/-! ## Ranges -/

namespace AtmosContentLengthRangeType

def toStruct (self : AtmosContentLengthRangeType) : contentLengthRangeStruct.Struct :=
  (self.«from», self.«to», ())

theorem unbind_toStruct (platform : TimePlatform) (name : CStr)
    (self : AtmosContentLengthRangeType) :
    contentLengthRangeStruct.unbind platform name self.toStruct = self.unbind name := rfl

theorem bind_toStruct (tmp : Int64) (self : AtmosContentLengthRangeType) (node : Tree) :
    contentLengthRangeStruct.bind tmp self.toStruct node = (self.bind node).toStruct := by
  have hskip : node.elements.foldl (contentLengthRangeStruct.bindChild tmp) self.toStruct =
      self.toStruct := List.foldl_fixed' (fun _ => rfl) node.elements
  rw [StructType.bind, bindChildren_eq, hskip]
  rfl

end AtmosContentLengthRangeType

/-! ## Form fields -/

namespace AtmosFormFieldType

def toStruct (self : AtmosFormFieldType) : formFieldStruct.Struct :=
  (self.tests .«matches», self.tests .eq, self.tests .startsWith, self.tests .endsWith,
    self.tests .contains, self.name, self.optional, ())

theorem unbind_toStruct (platform : TimePlatform) (name : CStr) (self : AtmosFormFieldType) :
    formFieldStruct.unbind platform name self.toStruct = self.unbind name := by
  have harrays : self.tests.unbind FormFieldTest.names =
      unbindStrings (bytes "matches") (self.tests .«matches») ++
        (unbindStrings (bytes "eq") (self.tests .eq) ++
          (unbindStrings (bytes "starts-with") (self.tests .startsWith) ++
            (unbindStrings (bytes "ends-with") (self.tests .endsWith) ++
              (unbindStrings (bytes "contains") (self.tests .contains) ++ [])))) := rfl
  have hoptional := self.optional.unbindBoolean_eq (bytes "optional")
  have hattributes : formFieldStruct.unbindAttributes platform self.toStruct =
      unbindString (bytes "name") self.name ++
        (unbindString (bytes "optional") (self.optional.present.map booleanText) ++ []) := rfl
  rw [unbind, harrays, hoptional, ← map_texts_array platform, ← map_texts_array platform,
    ← map_texts_array platform, ← map_texts_array platform, ← map_texts_array platform,
    StructType.unbind, hattributes, List.append_nil]
  rfl

theorem bindChild_toStruct (tmp : Int64) (self : AtmosFormFieldType) (child : Tree) :
    formFieldStruct.bindChild tmp self.toStruct child =
      toStruct { self with tests := self.tests.bindChild FormFieldTest.names child } := by
  have hfind : FormFieldTest.names.find child.name =
      if child.name = bytes "matches" then some .«matches»
      else if child.name = bytes "eq" then some .eq
      else if child.name = bytes "starts-with" then some .startsWith
      else if child.name = bytes "ends-with" then some .endsWith
      else if child.name = bytes "contains" then some .contains else none := by
    rw [ChildNames.find]
    simp only [FormFieldTest.names, find?_cons_name, List.find?_nil, FormFieldTest.xmlName]
  rw [StringArrays.bindChild, hfind]
  dsimp only [formFieldStruct, toStruct, StructType.bindChild]
  split_ifs <;> rfl

theorem bind_toStruct (tmp : Int64) (self : AtmosFormFieldType) (node : Tree) :
    formFieldStruct.bind tmp self.toStruct node = (self.bind node).toStruct := by
  have hfold : node.elements.foldl (formFieldStruct.bindChild tmp) self.toStruct =
      toStruct { self with
        tests := node.elements.foldl (StringArrays.bindChild FormFieldTest.names) self.tests } :=
    List.foldl_hom (fun tests => toStruct { self with tests := tests })
      fun tests child => bindChild_toStruct tmp { self with tests := tests } child
  rw [StructType.bind, bind, bindChildren_eq, bindChildren_eq, hfold]
  rfl

end AtmosFormFieldType

/-! ## Policies -/

namespace AtmosPolicyType

def toStruct (self : AtmosPolicyType) : policyStruct.Struct :=
  (self.expiration, self.maxUploads, self.maxDownloads, self.source.map (·.toStruct),
    self.contentLengthRange.map (·.toStruct), self.formField.map (·.toStruct), ())

/-- **A policy is written as its struct is.** -/
theorem unbind_toStruct (platform : TimePlatform) (rootName : CStr) (self : AtmosPolicyType) :
    policyStruct.unbind platform rootName self.toStruct = self.unbind platform rootName := by
  have hsource : (self.source.map (·.toStruct)).toList.map
      (sourceStruct.unbind platform (bytes "source")) =
        (self.source.map (·.unbind (bytes "source"))).toList := by
    cases self.source with
    | none => rfl
    | some source => exact congrArg (fun b => [b]) (source.unbind_toStruct platform _)
  have hrange : (self.contentLengthRange.map (·.toStruct)).toList.map
      (contentLengthRangeStruct.unbind platform (bytes "content-length-range")) =
        (self.contentLengthRange.map (·.unbind (bytes "content-length-range"))).toList := by
    cases self.contentLengthRange <;> rfl
  have hfields : (self.formField.map (·.toStruct)).map
      (formFieldStruct.unbind platform (bytes "form-field")) =
        self.formField.map (·.unbind (bytes "form-field")) := by
    rw [List.map_map]
    exact List.map_congr_left fun field _ => field.unbind_toStruct platform _
  have hdate : (Builtin.texts platform .dateTime .optional self.expiration).map
      (.value (bytes "expiration")) =
        self.expiration.unbindDateTime platform (bytes "expiration") := by
    unfold Member.unbindDateTime
    rw [Builtin.texts, Builtin.optionalText, Member.present]
    split <;> rfl
  have hint : ∀ name (m : Member Int64),
      (Builtin.texts platform .int .optional m).map (.value name) = m.unbindInt name := by
    intro name m
    unfold Member.unbindInt
    rw [Builtin.texts, Builtin.optionalText, Member.present]
    split <;> rfl
  have helements : policyStruct.unbindElements platform self.toStruct =
      (Builtin.texts platform .dateTime .optional self.expiration).map
          (.value (bytes "expiration")) ++
        ((Builtin.texts platform .int .optional self.maxUploads).map
            (.value (bytes "max-uploads")) ++
          ((Builtin.texts platform .int .optional self.maxDownloads).map
              (.value (bytes "max-downloads")) ++
            ((self.source.map (·.toStruct)).toList.map
                (sourceStruct.unbind platform (bytes "source")) ++
              ((self.contentLengthRange.map (·.toStruct)).toList.map
                  (contentLengthRangeStruct.unbind platform (bytes "content-length-range")) ++
                ((self.formField.map (·.toStruct)).map
                  (formFieldStruct.unbind platform (bytes "form-field")) ++ []))))) := rfl
  rw [StructType.unbind, helements, hdate, hint, hint, hsource, hrange, hfields, List.append_nil,
    unbind]
  simp only [List.append_assoc]
  rfl

theorem bindChild_toStruct (tmp : Int64) (self : AtmosPolicyType) (child : Tree) :
    policyStruct.bindChild tmp self.toStruct child = (self.bindChild child).toStruct := by
  have hfind : PolicyMember.names.find child.name =
      if child.name = bytes "expiration" then some .expiration
      else if child.name = bytes "max-uploads" then some .maxUploads
      else if child.name = bytes "max-downloads" then some .maxDownloads
      else if child.name = bytes "source" then some .source
      else if child.name = bytes "content-length-range" then some .contentLengthRange
      else if child.name = bytes "form-field" then some .formField else none := by
    rw [ChildNames.find]
    simp only [PolicyMember.names, find?_cons_name, List.find?_nil, PolicyMember.xmlName]
  have hsource := AtmosSourceType.bind_toStruct tmp .init child
  have hrange := AtmosContentLengthRangeType.bind_toStruct tmp .init child
  have hfield := AtmosFormFieldType.bind_toStruct tmp .init child
  rw [AtmosPolicyType.bindChild, hfind]
  dsimp only [policyStruct, toStruct, StructType.bindChild]
  split_ifs
  · rfl
  · rfl
  · rfl
  · dsimp only
    rw [Option.map_some, ← hsource]
    rfl
  · dsimp only
    rw [Option.map_some, ← hrange]
    rfl
  · dsimp only
    rw [List.map_append, List.map_singleton, ← hfield]
    rfl
  · rfl

theorem bind_toStruct (tmp : Int64) (self : AtmosPolicyType) (node : Tree) :
    policyStruct.bind tmp self.toStruct node = (self.bind node).toStruct := by
  rw [StructType.bind, bind, bindChildren_eq, bindChildren_eq]
  exact List.foldl_hom toStruct (bindChild_toStruct tmp)

end AtmosPolicyType

/-! ## Access tokens -/

namespace AtmosAccessTokenType

def toStruct (self : AtmosAccessTokenType) : accessTokenStruct.Struct :=
  (self.accessTokenId, self.expiration, self.maxUploads, self.maxDownloads,
    self.source.map (·.toStruct), self.contentLengthRange.toStruct, self.uid, self.objectId,
    self.path, ())

theorem bindChild_toStruct (tmp : Int64) (self : AtmosAccessTokenType) (child : Tree) :
    accessTokenStruct.bindChild tmp self.toStruct child = (self.bindChild child).toStruct := by
  have hfind : AccessTokenMember.names.find child.name =
      if child.name = bytes "access-token-id" then some .accessTokenId
      else if child.name = bytes "expiration" then some .expiration
      else if child.name = bytes "max-uploads" then some .maxUploads
      else if child.name = bytes "max-downloads" then some .maxDownloads
      else if child.name = bytes "source" then some .source
      else if child.name = bytes "content-length-range" then some .contentLengthRange
      else if child.name = bytes "uid" then some .uid
      else if child.name = bytes "object-id" then some .objectId
      else if child.name = bytes "path" then some .path else none := by
    rw [ChildNames.find]
    simp only [AccessTokenMember.names, find?_cons_name, List.find?_nil, AccessTokenMember.xmlName]
  have hsource := AtmosSourceType.bind_toStruct tmp .init child
  have hrange := self.contentLengthRange.bind_toStruct tmp child
  rw [AtmosAccessTokenType.bindChild, hfind]
  dsimp only [accessTokenStruct, toStruct, StructType.bindChild]
  split_ifs
  · rfl
  · rfl
  · rfl
  · rfl
  · dsimp only
    rw [Option.map_some, ← hsource]
    rfl
  · dsimp only
    rw [← hrange]
    rfl
  · rfl
  · rfl
  · rfl
  · rfl

theorem bind_toStruct (tmp : Int64) (self : AtmosAccessTokenType) (node : Tree) :
    accessTokenStruct.bind tmp self.toStruct node = (self.bind node).toStruct := by
  rw [StructType.bind, bind, bindChildren_eq, bindChildren_eq]
  exact List.foldl_hom toStruct (bindChild_toStruct tmp)

end AtmosAccessTokenType

/-! ## The generated code -/

theorem AtmosSourceType.toStruct_injective : Function.Injective toStruct := by
  intro self other h
  have hrules : self.rules = other.rules := by
    funext rule
    cases rule with
    | allow => exact congrArg (fun struct : sourceStruct.Struct => struct.1) h
    | disallow => exact congrArg (fun struct : sourceStruct.Struct => struct.2.1) h
  exact congrArg AtmosSourceType.mk hrules

theorem AtmosContentLengthRangeType.toStruct_injective : Function.Injective toStruct := by
  rintro ⟨low, high⟩ ⟨low', high'⟩ h
  obtain ⟨rfl, hrest⟩ := Prod.mk.inj h
  obtain ⟨rfl, -⟩ := Prod.mk.inj hrest
  rfl

theorem AtmosFormFieldType.toStruct_injective : Function.Injective toStruct := by
  rintro ⟨tests, name, optional⟩ ⟨tests', name', optional'⟩ h
  have htests : tests = tests' := by
    funext test
    cases test with
    | «matches» => exact congrArg (fun struct : formFieldStruct.Struct => struct.1) h
    | eq => exact congrArg (fun struct : formFieldStruct.Struct => struct.2.1) h
    | startsWith => exact congrArg (fun struct : formFieldStruct.Struct => struct.2.2.1) h
    | endsWith => exact congrArg (fun struct : formFieldStruct.Struct => struct.2.2.2.1) h
    | contains => exact congrArg (fun struct : formFieldStruct.Struct => struct.2.2.2.2.1) h
  have hname : name = name' :=
    congrArg (fun struct : formFieldStruct.Struct => struct.2.2.2.2.2.1) h
  have hoptional : optional = optional' :=
    congrArg (fun struct : formFieldStruct.Struct => struct.2.2.2.2.2.2.1) h
  rw [htests, hname, hoptional]

/-- A policy is all that its struct holds. -/
theorem AtmosPolicyType.toStruct_injective : Function.Injective toStruct := by
  rintro ⟨expiration, uploads, downloads, source, range, fields⟩
    ⟨expiration', uploads', downloads', source', range', fields'⟩ h
  obtain ⟨rfl, hrest⟩ := Prod.mk.inj h
  obtain ⟨rfl, hrest⟩ := Prod.mk.inj hrest
  obtain ⟨rfl, hrest⟩ := Prod.mk.inj hrest
  obtain ⟨hsource, hrest⟩ := Prod.mk.inj hrest
  obtain ⟨hrange, hrest⟩ := Prod.mk.inj hrest
  obtain ⟨hfields, -⟩ := Prod.mk.inj hrest
  obtain rfl : source = source' := Option.map_injective AtmosSourceType.toStruct_injective hsource
  obtain rfl : range = range' :=
    Option.map_injective AtmosContentLengthRangeType.toStruct_injective hrange
  obtain rfl : fields = fields' :=
    List.map_injective_iff.mpr AtmosFormFieldType.toStruct_injective hfields
  rfl

/-- **The code of the policies is the generated one.** The template ends on
`policy_no_ns.xsd`; C then knows a struct for policies and one for access tokens, and policies
are written, policies are read and access tokens are read by the functions that the
templates write for these. -/
theorem policy_code_generated :
    (∃ structs,
      (processComplexTypes policySchemaDecl.toSchema 12 policySchemaDecl.toSchema.root
        policySchemaDecl.toSchema.complexTypes []).bind
          (policySchemaDecl.declareStructs (bytes "Atmos") policySchemaDecl.toSchema.root · []) =
        some structs ∧
      structs.lookup (bytes "Atmos_policyType") = some policyStruct ∧
      structs.lookup (bytes "Atmos_accessTokenType") = some accessTokenStruct) ∧
    Function.Injective AtmosPolicyType.toStruct ∧
    (∀ (xml : XmlWriter) (platform : TimePlatform) (policy : AtmosPolicyType),
      policyStruct.marshal xml platform (bytes "policy") policy.toStruct =
        policy.marshal xml platform) ∧
    (∀ (xml : XmlWriter) (tmp : Int64) (text : CStr),
      policyStruct.unmarshal xml tmp text =
        (AtmosPolicyType.unmarshal xml text).map AtmosPolicyType.toStruct) ∧
    ∀ (tmp : Int64) (token : AtmosAccessTokenType) (node : Tree),
      accessTokenStruct.bind tmp token.toStruct node = (token.bind node).toStruct := by
  refine ⟨⟨policyHeader, policySchemaDecl_structs, by decide +kernel, by decide +kernel⟩,
    AtmosPolicyType.toStruct_injective, ?_, ?_, AtmosAccessTokenType.bind_toStruct⟩
  · intro xml platform policy
    rw [StructType.marshal, policy.unbind_toStruct]
    rfl
  · intro xml tmp text
    have hbind : ∀ node, policyStruct.bind tmp policyStruct.init node =
        (AtmosPolicyType.init.bind node).toStruct := fun node =>
      AtmosPolicyType.bind_toStruct tmp .init node
    rw [StructType.unmarshal, AtmosPolicyType.unmarshal, Option.map_map]
    exact congrArg (fun f => Option.map f (xml.readMemory text (.ofNat text.length)))
      (funext hbind)

/-! ### The policy of the tests -/

/-- A well-formed policy has a well-formed struct. -/
theorem AtmosPolicyType.WellFormed.toStruct {policy : AtmosPolicyType} (h : policy.WellFormed) :
    policyStruct.WellFormed policy.toStruct := by
  have hstrings : ∀ strings : List (Option CStr), none ∉ strings →
      (∀ s, some s ∈ strings → IsPlain s) →
        Builtin.string.WellFormed IsPlain .array strings := by
    intro strings hnull htexts value hvalue
    refine ⟨fun s hs => htexts s (hs ▸ hvalue), ?_⟩
    rintro rfl
    exact hnull hvalue
  refine ⟨?_, fun _ _ => trivial, fun _ _ => trivial, ?_, ?_, ?_, trivial⟩
  · intro time htime
    obtain ⟨hset, hvalue⟩ := Option.ite_none_right_eq_some.mp htime
    exact Option.some.inj hvalue ▸ gmtimeR_isSome_of_year (h.year hset)
  · intro struct hstruct
    obtain ⟨source, hsource, rfl⟩ := Option.map_eq_some_iff.mp (Option.mem_toList.mp hstruct)
    have hrule : ∀ rule, Builtin.string.WellFormed IsPlain .array (source.rules rule) :=
      fun rule => hstrings _ (h.rules source hsource rule)
        fun s hs => h.texts s (.inl ⟨source, hsource, rule, hs⟩)
    exact ⟨hrule .allow, hrule .disallow, trivial⟩
  · intro struct hstruct
    obtain ⟨range, -, rfl⟩ := Option.map_eq_some_iff.mp (Option.mem_toList.mp hstruct)
    exact ⟨fun _ _ => trivial, fun _ _ => trivial, trivial⟩
  · intro struct hstruct
    obtain ⟨field, hfield, rfl⟩ := List.mem_map.mp hstruct
    have htest : ∀ test, Builtin.string.WellFormed IsPlain .array (field.tests test) :=
      fun test => hstrings _ (h.tests field hfield test)
        fun s hs => h.texts s (.inr ⟨field, hfield, test, hs⟩)
    refine ⟨htest .«matches», htest .eq, htest .startsWith, htest .endsWith, htest .contains,
      ?_, ?_, trivial⟩
    · intro value hvalue s hs
      obtain rfl := List.mem_singleton.mp hvalue
      exact h.names s ⟨field, hfield, hs⟩
    · intro value hvalue
      exact h.optional field hfield value (Option.mem_toList.mp hvalue)

theorem policySchemaDecl_declares :
    ∃ declared, processComplexTypes policySchemaDecl.toSchema 12 policySchemaDecl.toSchema.root
        policySchemaDecl.toSchema.complexTypes [] = some declared ∧
      policySchemaDecl.declareStructs (bytes "Atmos") policySchemaDecl.toSchema.root declared [] =
        some policyHeader :=
  Option.bind_eq_some_iff.mp policySchemaDecl_structs

theorem exists_policyType :
    ∃ decl ∈ policySchemaDecl.types,
      policyHeader.lookup (ctToStructName (bytes "Atmos") decl.name) = some policyStruct :=
  ⟨_, List.mem_cons_self, by decide +kernel⟩

theorem schema_reread_policy :
    policyStruct.unmarshal testLibxml 0 testDocument =
      some (policyStruct.reread testLibxml testPlatform testPolicy.toStruct) := by
  obtain ⟨declared, hdeclared, hheader⟩ := policySchemaDecl_declares
  obtain ⟨decl, hdecl, hpolicy⟩ := exists_policyType
  obtain ⟨structs, hends, hall⟩ := SchemaDecl.schema_reread policySchemaDecl_accepted hdeclared
  obtain rfl := Option.some.inj (hheader.symm.trans hends)
  obtain ⟨type, hlookup, -, hread⟩ := hall decl hdecl
  obtain rfl := Option.some.inj (hpolicy.symm.trans hlookup)
  have hresult : policyStruct.unmarshal testLibxml 0 testDocument =
      some (policyStruct.bind 0 policyStruct.init testTree) := by
    rw [StructType.unmarshal, testLibxml, XmlWriter.readMemory_ofDocument]
    rfl
  have hself := testPolicy_wellFormed.toStruct
  rw [hresult, hread testLibxml ⟨testPlatform, 0⟩ (bytes "policy") testPolicy.toStruct testDocument
    (policyStruct.bind 0 policyStruct.init testTree)]
  · exact XmlWriter.ofDocument_documented testTree_rereads
  · decide +kernel
  · exact fun s hs => (StructType.isPlain_of_wellFormed hself s hs).1
  · exact StructType.isText_of_wellFormed hself
  · rw [StructType.marshal, testPolicy.unbind_toStruct]
    exact XmlWriter.dump_ofDocument _ _ _
  · exact hresult

theorem schema_round_trip_policy :
    (policyStruct.unmarshal testLibxml 0 testDocument).map policyStruct.meaning =
      some (policyStruct.meaning testPolicy.toStruct) := by
  obtain ⟨declared, hdeclared, hheader⟩ := policySchemaDecl_declares
  obtain ⟨decl, hdecl, hpolicy⟩ := exists_policyType
  obtain ⟨structs, hends, hall⟩ :=
    SchemaDecl.schema_round_trip policySchemaDecl_accepted hdeclared
  obtain rfl := Option.some.inj (hheader.symm.trans hends)
  obtain ⟨type, hlookup, -, hround⟩ := hall decl hdecl
  obtain rfl := Option.some.inj (hpolicy.symm.trans hlookup)
  apply hround testLibxml ⟨testPlatform, 0⟩ (bytes "policy")
  · exact XmlWriter.ofDocument_documented testTree_rereads
  · decide +kernel
  · exact testPolicy_wellFormed.toStruct
  · rw [StructType.marshal, testPolicy.unbind_toStruct]
    exact XmlWriter.dump_ofDocument _ _ _

end Atmos
