import Atmos.MemberRoundTrip

/-!
# Generated structs

`c_impl.xsl` writes a struct for every complex type of a schema, with its functions
`_init`, `_unbind` and `_bind`. This module has them for any complex type, with the
types of its elements in place of their names.

* `StructType.Struct` — the struct: a member for every element and attribute;
* `StructType.unbind` — the element that a struct is written to;
* `StructType.bind` — an element is read into a struct.
-/

namespace Atmos

open ByteText CivilTime FormattedText XmlDocument

/-! ## Types -/

/-- The builtin types that the templates know. -/
inductive Builtin where
  | string
  | int
  | dateTime
  | boolean
  deriving DecidableEq, Repr

/-- How often an element occurs. -/
inductive Cardinality where
  | required
  | optional
  | array
  deriving DecidableEq, Repr

/-- A complex type: its elements and attributes, one after the other. -/
inductive StructType where
  | nil
  | element (name : CStr) (cardinality : Cardinality) (type : Builtin) (rest : StructType)
  | complex (name : CStr) (cardinality : Cardinality) (type rest : StructType)
  /-- an attribute; `required` is `@use = 'required'` -/
  | prop (name : CStr) (required : Bool) (type : Builtin) (rest : StructType)
  deriving DecidableEq, Repr

/-- What C leaves open. -/
structure BindingPlatform extends TimePlatform where
  /-- what the uninitialised `tmp` of an array of numbers holds -/
  tmp : Int64

/-! ## Members of builtin types -/

namespace Builtin

/-- `char *`, `int64_t`, `time_t` and `int` -/
@[reducible] def Value : Builtin → Type
  | string => Option CStr
  | int => Int64
  | dateTime => Int64
  | boolean => Int32

/-- `simple_type_to_struct`: an optional value has a companion `_set`, but a string
is null. -/
@[reducible] def Optional : Builtin → Type
  | string => Option CStr
  | int => Member Int64
  | dateTime => Member Int64
  | boolean => Member Int32

/-- `xsd_type_to_c_struct`; an array has a companion `_count`. -/
@[reducible] def Cell (type : Builtin) : Cardinality → Type
  | .required => type.Value
  | .optional => type.Optional
  | .array => List type.Value

def initValue : (type : Builtin) → type.Value
  | string => none
  | int => 0
  | dateTime => 0
  | boolean => 0

def initOptional : (type : Builtin) → type.Optional
  | string => none
  | int => .init
  | dateTime => .init
  | boolean => .init

def init (type : Builtin) : (cardinality : Cardinality) → type.Cell cardinality
  | .required => type.initValue
  | .optional => type.initOptional
  | .array => []

/-- The value of an optional member, whatever its companion says. -/
def held : (type : Builtin) → type.Optional → type.Value
  | string, text => text
  | int, m => m.value
  | dateTime, m => m.value
  | boolean, m => m.value

/-! ### To XML -/

section Unbind

variable (platform : TimePlatform)

/-- What is written for a value; nothing for a null pointer. -/
def text : (type : Builtin) → type.Value → Option CStr
  | string, value => value
  | int, value => some (int64Text value)
  | dateTime, value => some (dateTimeText platform value)
  | boolean, value => some (booleanText value)

def optionalText : (type : Builtin) → type.Optional → Option CStr
  | string, value => value
  | int, m => m.present.map int64Text
  | dateTime, m => m.present.map (dateTimeText platform)
  | boolean, m => m.present.map booleanText

/-- The unbinder takes an attribute for required by its `@use`. -/
def attributeText (required : Bool) (type : Builtin) (m : type.Optional) : Option CStr :=
  if required then type.text platform (type.held m) else type.optionalText platform m

/-- The texts of the elements of a member. -/
def texts (type : Builtin) : (cardinality : Cardinality) → type.Cell cardinality → List CStr
  | .required, value => (type.text platform value).toList
  | .optional, m => (type.optionalText platform m).toList
  | .array, values => values.filterMap (type.text platform)

end Unbind

/-! ### From XML -/

def bindValue : (type : Builtin) → type.Value → CStr → type.Value
  | string, _, text => some text
  | int, value, text => (sscanf [.int] text).number 0 value
  | dateTime, _, text => datetimeParse text
  | boolean, _, text => if text = bytes "true" then 1 else 0

def bindOptional : (type : Builtin) → type.Optional → CStr → type.Optional
  | string, _, text => some text
  | int, m, text => m.bindInt text
  | dateTime, _, text => .bindDateTime text
  | boolean, _, text => .bindBoolean text

/-- A number is scanned into `tmp` first, and `sscanf` taken as a truth value. -/
def bindArray (tmp : Int64) : (type : Builtin) → List type.Value → CStr → List type.Value
  | string, values, text => values ++ [some text]
  | int, values, text =>
      let scan := sscanf [.int] text
      if scan.result ≠ 0 then values ++ [scan.number 0 tmp] else values
  | dateTime, values, text => values ++ [datetimeParse text]
  | boolean, values, text => values ++ [if text = bytes "true" then 1 else 0]

/-- `xsd_type_bind` for an element of a builtin type. -/
def bind (tmp : Int64) (type : Builtin) :
    (cardinality : Cardinality) → type.Cell cardinality → CStr → type.Cell cardinality
  | .required, value, text => type.bindValue value text
  | .optional, m, text => type.bindOptional m text
  | .array, values, text => type.bindArray tmp values text

end Builtin

/-! ## Members of complex types -/

namespace Cardinality

variable {σ : Type}

/-- An embedded struct, a pointer, and an array with its `_count`. -/
@[reducible] def Slot (σ : Type) : Cardinality → Type
  | required => σ
  | optional => Option σ
  | array => List σ

def init (zero : σ) : (cardinality : Cardinality) → cardinality.Slot σ
  | required => zero
  | optional => none
  | array => []

/-- The structs that are there. -/
def structs : (cardinality : Cardinality) → cardinality.Slot σ → List σ
  | required, self => [self]
  | optional, target => target.toList
  | array, values => values

/-- `xsd_type_bind` for an element of a complex type: an embedded struct is bound as
it is, a pointer's target is initialised again, and an array grows by one. -/
def bindStruct (zero : σ) (bind : σ → σ) :
    (cardinality : Cardinality) → cardinality.Slot σ → cardinality.Slot σ
  | required, self => bind self
  | optional, _ => some (bind zero)
  | array, values => values ++ [bind zero]

end Cardinality

/-! ## Structs -/

namespace StructType

/-- `build-struct` -/
@[reducible] def Struct : StructType → Type
  | nil => Unit
  | element _ cardinality type rest => type.Cell cardinality × rest.Struct
  | complex _ cardinality type rest => cardinality.Slot type.Struct × rest.Struct
  | prop _ _ type rest => type.Optional × rest.Struct

/-- `implement-constructor` -/
def init : (type : StructType) → type.Struct
  | nil => ()
  | element _ cardinality type rest => (type.init cardinality, rest.init)
  | complex _ cardinality type rest => (cardinality.init type.init, rest.init)
  | prop _ _ type rest => (type.initOptional, rest.init)

/-! ### To XML -/

section Unbind

variable (platform : TimePlatform)

/-- The attributes that `_unbind` adds to its element. -/
def unbindAttributes : (type : StructType) → type.Struct → List (CStr × CStr)
  | nil, _ => []
  | element _ _ _ rest, (_, others) => rest.unbindAttributes others
  | complex _ _ _ rest, (_, others) => rest.unbindAttributes others
  | prop name required type rest, (m, others) =>
      unbindString name (type.attributeText platform required m) ++ rest.unbindAttributes others

/-- The children that `_unbind` adds to its element. -/
def unbindElements : (type : StructType) → type.Struct → List Built
  | nil, _ => []
  | element name cardinality type rest, (cell, others) =>
      (type.texts platform cardinality cell).map (.value name) ++ rest.unbindElements others
  | complex name cardinality type rest, (slot, others) =>
      ((cardinality.structs slot).map fun self =>
        .node name (type.unbindAttributes platform self) (type.unbindElements self)) ++
        rest.unbindElements others
  | prop _ _ _ rest, (_, others) => rest.unbindElements others

/-- `implement-unbinder`: the element that it populates. -/
def unbind (type : StructType) (name : CStr) (self : type.Struct) : Built :=
  .node name (type.unbindAttributes platform self) (type.unbindElements platform self)

end Unbind

/-! ### From XML -/

/-- The attributes that `_bind` reads, after the children. -/
def bindAttributes : (type : StructType) → type.Struct → Tree → type.Struct
  | nil, self, _ => self
  | element _ _ _ rest, (cell, others), node => (cell, rest.bindAttributes others node)
  | complex _ _ _ rest, (slot, others), node => (slot, rest.bindAttributes others node)
  | prop name _ type rest, (m, others), node =>
      ((node.getProp name).elim m (type.bindOptional m), rest.bindAttributes others node)

/-- The chain of `strcmp` of `_bind`; a child that no element has the name of is
skipped. -/
def bindChild (tmp : Int64) : (type : StructType) → type.Struct → Tree → type.Struct
  | nil, self, _ => self
  | element name cardinality type rest, (cell, others), child =>
      if child.name = name then (type.bind tmp cardinality cell child.content, others)
      else (cell, rest.bindChild tmp others child)
  | complex name cardinality type rest, (slot, others), child =>
      if child.name = name then
        (cardinality.bindStruct type.init
          (fun self => type.bindAttributes (bindChildren (type.bindChild tmp) self child) child)
          slot, others)
      else (slot, rest.bindChild tmp others child)
  | prop _ _ _ rest, (m, others), child => (m, rest.bindChild tmp others child)

/-- `implement-binder` -/
def bind (tmp : Int64) (type : StructType) (self : type.Struct) (node : Tree) : type.Struct :=
  type.bindAttributes (bindChildren (type.bindChild tmp) self node) node

/-! ### Documents -/

/-- `implement_marshaller` -/
def marshal (xml : XmlWriter) (platform : TimePlatform) (type : StructType) (rootName : CStr)
    (self : type.Struct) : Option CStr :=
  xml.dump (type.unbind platform rootName self)

/-- `implement_unmarshaller`; the name of the root is not looked at. -/
def unmarshal (xml : XmlWriter) (tmp : Int64) (type : StructType) (text : CStr) :
    Option type.Struct :=
  (xml.readMemory text (.ofNat text.length)).map (type.bind tmp type.init ·)

/-! ### Names -/

/-- The names of the elements of a type. -/
def elementNames : StructType → List CStr
  | nil => []
  | element name _ _ rest => name :: rest.elementNames
  | complex name _ _ rest => name :: rest.elementNames
  | prop _ _ _ rest => rest.elementNames

/-- The names of the attributes of a type. -/
def attributeNames : StructType → List CStr
  | nil => []
  | element _ _ _ rest => rest.attributeNames
  | complex _ _ _ rest => rest.attributeNames
  | prop name _ _ rest => name :: rest.attributeNames

/-- In a type and those of its elements, no two elements have one name, and no two
attributes. -/
def Distinct : StructType → Prop
  | nil => True
  | element name _ _ rest => name ∉ rest.elementNames ∧ rest.Distinct
  | complex name _ type rest => name ∉ rest.elementNames ∧ type.Distinct ∧ rest.Distinct
  | prop name _ _ rest => name ∉ rest.attributeNames ∧ rest.Distinct

end StructType

end Atmos
