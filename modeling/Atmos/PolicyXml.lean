import Atmos.XmlBinding

/-!
# Policies in XML

The code that is generated from `policy_no_ns.xsd`: the types of a policy, their
functions `_unbind` and `_bind`, and `_marshal` and `_unmarshal` for the element
`policy`.

* `AtmosPolicyType.unbind` and `AtmosPolicyType.bind` — a policy and its element;
* `AtmosPolicyType.marshal` and `AtmosPolicyType.unmarshal` — a policy and its
  document.
-/

namespace Atmos

open ByteText CivilTime XmlDocument

/-! ## `sourceType` -/

/-- The arrays of a source. -/
inductive SourceRule where
  | allow
  | disallow
  deriving DecidableEq, Repr

namespace SourceRule

def xmlName : SourceRule → CStr
  | allow => bytes "allow"
  | disallow => bytes "disallow"

/-- The sequence of the schema. -/
def names : ChildNames SourceRule where
  all := [allow, disallow]
  xmlName := xmlName
  complete rule := by cases rule <;> decide
  nodup := by decide +kernel
  isName rule := by cases rule <;> decide +kernel

end SourceRule

structure AtmosSourceType where
  /-- `allow` and `disallow` -/
  rules : StringArrays SourceRule

namespace AtmosSourceType

def init : AtmosSourceType := ⟨.init⟩

/-- The element that `_unbind` populates. -/
def unbind (xmlName : CStr) (self : AtmosSourceType) : Built :=
  .node xmlName [] (self.rules.unbind SourceRule.names)

def bind (self : AtmosSourceType) (node : Tree) : AtmosSourceType :=
  ⟨bindChildren (StringArrays.bindChild SourceRule.names) self.rules node⟩

end AtmosSourceType

/-! ## `contentLengthRangeType` -/

structure AtmosContentLengthRangeType where
  «from» : Member Int64
  «to» : Member Int64
  deriving DecidableEq, Repr

namespace AtmosContentLengthRangeType

def init : AtmosContentLengthRangeType := ⟨.init, .init⟩

def unbind (xmlName : CStr) (self : AtmosContentLengthRangeType) : Built :=
  .node xmlName (self.«from».unbindRequiredInt (bytes "from") ++
    self.«to».unbindRequiredInt (bytes "to")) []

/-- The binder takes both attributes for optional ones. -/
def bind (self : AtmosContentLengthRangeType) (node : Tree) : AtmosContentLengthRangeType where
  «from» := (node.getProp (bytes "from")).elim self.«from» self.«from».bindInt
  «to» := (node.getProp (bytes "to")).elim self.«to» self.«to».bindInt

end AtmosContentLengthRangeType

/-! ## `formFieldType` -/

/-- The arrays of a form field. -/
inductive FormFieldTest where
  | «matches»
  | eq
  | startsWith
  | endsWith
  | contains
  deriving DecidableEq, Repr

namespace FormFieldTest

def xmlName : FormFieldTest → CStr
  | «matches» => bytes "matches"
  | eq => bytes "eq"
  | startsWith => bytes "starts-with"
  | endsWith => bytes "ends-with"
  | contains => bytes "contains"

/-- The sequence of the schema. -/
def names : ChildNames FormFieldTest where
  all := [«matches», eq, startsWith, endsWith, contains]
  xmlName := xmlName
  complete test := by cases test <;> decide
  nodup := by decide +kernel
  isName test := by cases test <;> decide +kernel

end FormFieldTest

structure AtmosFormFieldType where
  /-- `matches`, `eq`, `starts_with`, `ends_with` and `contains` -/
  tests : StringArrays FormFieldTest
  name : Option CStr
  optional : Member Int32

namespace AtmosFormFieldType

def init : AtmosFormFieldType := ⟨.init, none, .init⟩

def unbind (xmlName : CStr) (self : AtmosFormFieldType) : Built :=
  .node xmlName (unbindString (bytes "name") self.name ++
    self.optional.unbindBoolean (bytes "optional")) (self.tests.unbind FormFieldTest.names)

def bind (self : AtmosFormFieldType) (node : Tree) : AtmosFormFieldType where
  tests := bindChildren (StringArrays.bindChild FormFieldTest.names) self.tests node
  name := (node.getProp (bytes "name")).elim self.name some
  optional := (node.getProp (bytes "optional")).elim self.optional Member.bindBoolean

end AtmosFormFieldType

/-! ## `policyType` -/

/-- The elements of a policy. -/
inductive PolicyMember where
  | expiration
  | maxUploads
  | maxDownloads
  | source
  | contentLengthRange
  | formField
  deriving DecidableEq, Repr

namespace PolicyMember

def xmlName : PolicyMember → CStr
  | expiration => bytes "expiration"
  | maxUploads => bytes "max-uploads"
  | maxDownloads => bytes "max-downloads"
  | source => bytes "source"
  | contentLengthRange => bytes "content-length-range"
  | formField => bytes "form-field"

/-- The sequence of the schema. -/
def names : ChildNames PolicyMember where
  all := [expiration, maxUploads, maxDownloads, source, contentLengthRange, formField]
  xmlName := xmlName
  complete part := by cases part <;> decide
  nodup := by decide +kernel
  isName part := by cases part <;> decide +kernel

end PolicyMember

/-- `Atmos_policyType`; the pointers to a source and to a range may be null. -/
structure AtmosPolicyType where
  expiration : Member Int64
  maxUploads : Member Int64
  maxDownloads : Member Int64
  source : Option AtmosSourceType
  contentLengthRange : Option AtmosContentLengthRangeType
  formField : List AtmosFormFieldType

namespace AtmosPolicyType

open PolicyMember (xmlName)

def init : AtmosPolicyType := ⟨.init, .init, .init, none, none, []⟩

def unbind (platform : TimePlatform) (rootName : CStr) (self : AtmosPolicyType) : Built :=
  .node rootName []
    (self.expiration.unbindDateTime platform (xmlName .expiration) ++
      self.maxUploads.unbindInt (xmlName .maxUploads) ++
      self.maxDownloads.unbindInt (xmlName .maxDownloads) ++
      (self.source.map (·.unbind (xmlName .source))).toList ++
      (self.contentLengthRange.map (·.unbind (xmlName .contentLengthRange))).toList ++
      self.formField.map (·.unbind (xmlName .formField)))

/-- What `_bind` does with a child. A source or a range that is there already is
initialised again, and other children are skipped. -/
def bindChild (self : AtmosPolicyType) (child : Tree) : AtmosPolicyType :=
  match PolicyMember.names.find child.name with
  | some .expiration => { self with expiration := .bindDateTime child.content }
  | some .maxUploads => { self with maxUploads := self.maxUploads.bindInt child.content }
  | some .maxDownloads => { self with maxDownloads := self.maxDownloads.bindInt child.content }
  | some .source => { self with source := some (.bind .init child) }
  | some .contentLengthRange => { self with contentLengthRange := some (.bind .init child) }
  | some .formField => { self with formField := self.formField ++ [.bind .init child] }
  | none => self

def bind (self : AtmosPolicyType) (node : Tree) : AtmosPolicyType :=
  bindChildren bindChild self node

/-- `Atmos_policyType_marshal` -/
def marshal (xml : XmlWriter) (platform : TimePlatform) (self : AtmosPolicyType) : Option CStr :=
  xml.dump (self.unbind platform (bytes "policy"))

/-- `Atmos_policyType_unmarshal`; the name of the root is not looked at. -/
def unmarshal (xml : XmlWriter) (text : CStr) : Option AtmosPolicyType :=
  (xml.readMemory text (.ofNat text.length)).map (init.bind ·)

end AtmosPolicyType

end Atmos
