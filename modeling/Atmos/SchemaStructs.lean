import Atmos.BindingGenerator
import Atmos.StructDocuments

/-!
# The structs of a schema

The complex types of a schema refer to each other by name. The generated header declares
a struct for each in the order of `process_complex_types`, and C knows the structs that
have been declared.

* `ElementDecl.cardinality` — how often an element occurs, by its two attributes;
* `SchemaDecl.declareStructs` — the structs that are declared, one after the other;
* `declareStructs_ends` — every type of an accepted schema gets its struct;
* `schema_round_trip` — documents of all of them are read back.
-/

namespace Atmos

open ByteText XmlDocument

/-! ## Declarations -/

/-- `@maxOccurs` -/
inductive MaxOccurs where
  | times (n : Nat)
  | unbounded
  deriving DecidableEq, Repr

/-- `@maxOccurs = 'unbounded' or @maxOccurs > 1` -/
def MaxOccurs.isMany : MaxOccurs → Bool
  | times n => 1 < n
  | unbounded => true

/-- An `xsd:element` of a sequence. -/
structure ElementDecl where
  name : CStr
  type : CStr
  minOccurs : Option Nat
  maxOccurs : Option MaxOccurs
  deriving DecidableEq, Repr

/-- The `cardinality` of an element. -/
def ElementDecl.cardinality (element : ElementDecl) : Cardinality :=
  if element.maxOccurs.any MaxOccurs.isMany then .array
  else if element.minOccurs = some 1 ∧ element.maxOccurs = some (.times 1) then .required
  else if element.minOccurs = some 0 ∧ element.maxOccurs = some (.times 1) then .optional
  else if element.minOccurs = some 0 then .optional
  else if element.maxOccurs = some (.times 1) then .required
  else .required

/-- An `xsd:attribute`; `required` is `@use = 'required'`. -/
structure AttributeDecl where
  name : CStr
  type : CStr
  required : Bool
  deriving DecidableEq, Repr

/-- An `xsd:complexType`. -/
structure TypeDecl where
  name : CStr
  namespaces : List NamespaceNode
  elements : List ElementDecl
  attributes : List AttributeDecl
  deriving DecidableEq

/-- The part of a type that its place in the header depends on. -/
def TypeDecl.toComplexType (decl : TypeDecl) : ComplexType :=
  ⟨decl.name, decl.namespaces, decl.elements.map (·.type)⟩

/-- An `xsd:schema`. -/
structure SchemaDecl where
  targetNamespace : CStr
  namespaces : List NamespaceNode
  types : List TypeDecl

def SchemaDecl.toSchema (schema : SchemaDecl) : Schema :=
  ⟨schema.targetNamespace, schema.namespaces, schema.types.map TypeDecl.toComplexType⟩

/-! ## Names in C -/

abbrev hyphen : UInt8 := 45
abbrev dot : UInt8 := 46
abbrev underscore : UInt8 := 95

/-- `str:split`, which drops empty tokens. -/
def strSplit (sep : UInt8) (s : CStr) : List CStr := (s.splitOn sep).filter (· != [])

/-- A letter in upper case. -/
def toUpper (b : UInt8) : UInt8 := if 97 ≤ b ∧ b ≤ 122 then b - 32 else b

/-- `token_list_to_camel_case` -/
def tokenListToCamelCase (tokens : List CStr) : CStr :=
  (tokens.head?.elim [] fun token => token.modifyHead toLower) ++
    tokens.tail.flatMap fun token => token.modifyHead toUpper

/-- `ct_to_struct_name`; `pref` is the global parameter `prefix`. -/
def ctToStructName (pref typeName : CStr) : CStr :=
  let localTypeName := if colon ∈ typeName then substringAfter typeName else typeName
  let hyphensplit := tokenListToCamelCase (strSplit hyphen localTypeName)
  (if pref = [] then [] else pref ++ [underscore]) ++
    tokenListToCamelCase (strSplit underscore hyphensplit)

/-- `element_to_c_name` -/
def elementToCName (elementName : CStr) : CStr :=
  let localTypeName := if colon ∈ elementName then substringAfter elementName else elementName
  localTypeName.map fun b => if b = hyphen ∨ b = dot then underscore else b

/-- The keywords of C11, and the two that GNU C adds. -/
def cKeywords : List CStr :=
  ["auto", "break", "case", "char", "const", "continue", "default", "do", "double", "else", "enum",
    "extern", "float", "for", "goto", "if", "inline", "int", "long", "register", "restrict",
    "return", "short", "signed", "sizeof", "static", "struct", "switch", "typedef", "union",
    "unsigned", "void", "volatile", "while", "_Alignas", "_Alignof", "_Atomic", "_Bool", "_Complex",
    "_Generic", "_Imaginary", "_Noreturn", "_Static_assert", "_Thread_local", "asm",
    "typeof"].map bytes

/-- An identifier of C. -/
def IsIdentifier (s : CStr) : Prop :=
  (s.head?.any isNameStart && s.all fun b => isNameStart b || isDigit b) = true ∧ s ∉ cKeywords

instance (s : CStr) : Decidable (IsIdentifier s) := inferInstanceAs (Decidable (_ ∧ _))

/-- What the generated functions call their parameters and variables, and the two functions
that are generated with every schema. -/
def templateNames : List CStr :=
  ["self", "node", "doc", "child", "value", "tmp", "tmparr", "i", "buffer", "a", "n", "ns", "data",
    "root", "docsz", "xml", "xmlbuff", "buffersize", "datetime_parse", "lookup_namespace"].map bytes

/-! ## Structs -/

def xsdNamespace : CStr := bytes "http://www.w3.org/2001/XMLSchema"

/-- The builtin type of a name; the generator stops at others. -/
def Builtin.ofName (name : CStr) : Option Builtin :=
  if name = bytes "string" then some .string
  else if name = bytes "int" then some .int
  else if name = bytes "dateTime" then some .dateTime
  else if name = bytes "boolean" then some .boolean
  else none

section Declare

variable (pref : CStr) (root : Root)

/-- What a reference refers to, among the structs that have been declared: a builtin type
or a struct. -/
def resolve (structs : List (CStr × StructType)) (typeName : CStr) :
    Option (Builtin ⊕ StructType) :=
  let lookup := xsdTypeReferenceToQname root typeName
  if lookup.namespaceUri = xsdNamespace then (Builtin.ofName lookup.localName).map .inl
  else (structs.lookup (ctToStructName pref typeName)).map .inr

/-- `xsd_type_to_c_struct` for an element. -/
def ElementDecl.member (structs : List (CStr × StructType)) (element : ElementDecl)
    (rest : StructType) : Option StructType :=
  (resolve pref root structs element.type).map fun
    | .inl type => .element element.name element.cardinality type rest
    | .inr type => .complex element.name element.cardinality type rest

/-- `xsd_type_to_c_struct` for an attribute, whose type is simple. -/
def AttributeDecl.member (self : AttributeDecl) (rest : StructType) : Option StructType :=
  (resolve pref root [] self.type).bind fun
    | .inl type => some (.prop self.name self.required type rest)
    | .inr _ => none

/-- `build-struct`: the elements, then the attributes. -/
def TypeDecl.structType (structs : List (CStr × StructType)) (decl : TypeDecl) :
    Option StructType :=
  let attributes := decl.attributes.foldr (fun self rest => rest.bind (self.member pref root))
    (some .nil)
  decl.elements.foldr (fun element rest => rest.bind (element.member pref root structs)) attributes

/-- The builtin type that a reference refers to; none where it refers to a struct. -/
def builtinOf (typeName : CStr) : Option Builtin :=
  (resolve pref root [] typeName).bind Sum.getLeft?

/-- The names of the members that `xsd_type_to_c_struct` writes for an element or an attribute:
arrays are counted, and optional numbers and truth values have a companion. -/
def memberNames (name : CStr) (cardinality : Cardinality) (type : Option Builtin) : List CStr :=
  elementToCName name ::
    if cardinality = .array then [elementToCName name ++ bytes "_count"]
    else if cardinality = .optional ∧ type.any (· != .string) then
      [elementToCName name ++ bytes "_set"]
    else []

/-- The names of all members of a struct. No attribute is required, as `@required` is none of
its attributes. -/
def TypeDecl.memberNames (decl : TypeDecl) : List CStr :=
  (decl.elements.flatMap fun element =>
      Atmos.memberNames element.name element.cardinality (builtinOf pref root element.type)) ++
    decl.attributes.flatMap fun self =>
      Atmos.memberNames self.name .optional (builtinOf pref root self.type)

/-- An element of numbers or timestamps. -/
def ElementDecl.isNumber (element : ElementDecl) : Bool :=
  builtinOf pref root element.type == some .int ||
    builtinOf pref root element.type == some .dateTime

/-- The complex type of a name. -/
def SchemaDecl.find (schema : SchemaDecl) (name : CStr) : Option TypeDecl :=
  schema.types.find? (·.name == name)

/-- The structs that C knows after the declarations of some types; none where it does not
know a struct that is used. -/
def SchemaDecl.declareStructs (schema : SchemaDecl) :
    List ComplexType → List (CStr × StructType) → Option (List (CStr × StructType))
  | [], structs => some structs
  | type :: rest, structs =>
      (schema.find type.name).bind fun decl =>
        (decl.structType pref root structs).bind fun struct =>
          schema.declareStructs rest (structs ++ [(ctToStructName pref decl.name, struct)])

end Declare

/-! ## What is declared -/

section Members

variable {pref : CStr} {root : Root} {structs : List (CStr × StructType)}

/-- The types whose documents can be written and read. -/
def StructType.Sound (type : StructType) : Prop :=
  type.Distinct ∧ ∀ name ∈ type.names, IsName name

theorem resolve_append {typeName : CStr} {found : Builtin ⊕ StructType}
    (h : resolve pref root structs typeName = some found) (more : List (CStr × StructType)) :
    resolve pref root (structs ++ more) typeName = some found := by
  unfold resolve at h ⊢
  dsimp only at h ⊢
  split at h
  · rename_i hbuiltin
    rwa [if_pos hbuiltin]
  · rename_i hcomplex
    obtain ⟨type, htype, rfl⟩ := Option.map_eq_some_iff.mp h
    rw [if_neg hcomplex, List.lookup_append, htype, Option.some_or, Option.map_some]

/-- **A struct of which every part is declared** is declared, and stays what it is when
more structs are. -/
theorem TypeDecl.exists_structType {decl : TypeDecl}
    (helements : ∀ element ∈ decl.elements, (resolve pref root structs element.type).isSome)
    (hattributes : ∀ self ∈ decl.attributes,
      ∃ type, resolve pref root [] self.type = some (.inl type)) :
    ∃ type, ∀ more, decl.structType pref root (structs ++ more) = some type := by
  unfold structType
  dsimp only
  have htail : ∃ type, decl.attributes.foldr
      (fun self rest => rest.bind (self.member pref root)) (some .nil) = some type := by
    generalize decl.attributes = attributes at hattributes
    induction attributes with
    | nil => exact ⟨.nil, rfl⟩
    | cons self attributes ih =>
        obtain ⟨⟨type, htype⟩, hrest⟩ := List.forall_mem_cons.mp hattributes
        obtain ⟨rest, hrest⟩ := ih hrest
        refine ⟨.prop self.name self.required type rest, ?_⟩
        rw [List.foldr_cons, hrest, Option.bind_some, AttributeDecl.member, htype]
        rfl
  obtain ⟨tail, htail⟩ := htail
  rw [htail]
  generalize decl.elements = elements at helements
  induction elements with
  | nil => exact ⟨tail, fun _ => rfl⟩
  | cons element elements ih =>
      obtain ⟨hfirst, hrest⟩ := List.forall_mem_cons.mp helements
      obtain ⟨found, hfound⟩ := Option.isSome_iff_exists.mp hfirst
      obtain ⟨rest, hrest⟩ := ih hrest
      have hmember : ∃ type, element.member pref root structs rest = some type := by
        rw [ElementDecl.member, hfound]
        exact ⟨_, rfl⟩
      obtain ⟨type, htype⟩ := hmember
      refine ⟨type, fun more => ?_⟩
      rw [List.foldr_cons, hrest, Option.bind_some, ← htype, ElementDecl.member,
        ElementDecl.member, hfound, resolve_append hfound]

/-- The attributes of a type, as they are declared. -/
theorem sound_attributes {attributes : List AttributeDecl}
    (hnodup : (attributes.map (·.name)).Nodup) (hnames : ∀ self ∈ attributes, IsName self.name)
    {type : StructType}
    (h : attributes.foldr (fun self rest => rest.bind (self.member pref root)) (some .nil) =
      some type) :
    type.Sound ∧ type.elementNames = [] ∧ type.attributeNames = attributes.map (·.name) := by
  induction attributes generalizing type with
  | nil =>
      obtain rfl := Option.some.inj h
      exact ⟨⟨trivial, fun _ h => nomatch h⟩, rfl, rfl⟩
  | cons self attributes ih =>
      obtain ⟨hself, hnodup⟩ := List.nodup_cons.mp hnodup
      obtain ⟨hname, hnames⟩ := List.forall_mem_cons.mp hnames
      rw [List.foldr_cons] at h
      obtain ⟨rest, hrest, hmember⟩ := Option.bind_eq_some_iff.mp h
      obtain ⟨⟨hdistinct, hinner⟩, helements, hattributes⟩ := ih hnodup hnames hrest
      obtain ⟨found, -, hfound⟩ := Option.bind_eq_some_iff.mp hmember
      cases found with
      | inr type => cases hfound
      | inl type =>
          obtain rfl := Option.some.inj hfound
          refine ⟨⟨⟨hattributes ▸ hself, hdistinct⟩, ?_⟩, helements, ?_⟩
          · exact List.forall_mem_cons.mpr ⟨hname, hinner⟩
          · exact congrArg (self.name :: ·) hattributes

/-- **A declared struct** has the names of its declaration. -/
theorem TypeDecl.sound_structType (hstructs : ∀ struct ∈ structs, struct.2.Sound) {decl : TypeDecl}
    (helements : (decl.elements.map (·.name)).Nodup)
    (hattributes : (decl.attributes.map (·.name)).Nodup)
    (hnames : (∀ element ∈ decl.elements, IsName element.name) ∧
      ∀ self ∈ decl.attributes, IsName self.name) {type : StructType}
    (h : decl.structType pref root structs = some type) : type.Sound := by
  suffices hsuffices : type.Sound ∧ type.elementNames = decl.elements.map (·.name) from
    hsuffices.1
  unfold structType at h
  dsimp only at h
  obtain ⟨hnames, hattributeNames⟩ := hnames
  generalize decl.elements = elements at helements hnames h
  induction elements generalizing type with
  | nil =>
      obtain ⟨hsound, hnil, -⟩ := sound_attributes hattributes hattributeNames h
      exact ⟨hsound, hnil⟩
  | cons element elements ih =>
      obtain ⟨hnew, hnodup⟩ := List.nodup_cons.mp helements
      obtain ⟨hname, hnames⟩ := List.forall_mem_cons.mp hnames
      rw [List.foldr_cons] at h
      obtain ⟨rest, hrest, hmember⟩ := Option.bind_eq_some_iff.mp h
      obtain ⟨⟨hdistinct, hinner⟩, hrestNames⟩ := ih hnodup hnames hrest
      obtain ⟨found, hfound, rfl⟩ := Option.map_eq_some_iff.mp hmember
      cases found with
      | inl type =>
          exact ⟨⟨⟨hrestNames ▸ hnew, hdistinct⟩, List.forall_mem_cons.mpr ⟨hname, hinner⟩⟩,
            congrArg (element.name :: ·) hrestNames⟩
      | inr type =>
          have htype : type.Sound := by
            unfold resolve at hfound
            dsimp only at hfound
            split at hfound
            · obtain ⟨b, -, hb⟩ := Option.map_eq_some_iff.mp hfound
              cases hb
            · obtain ⟨struct, hlookup, hstruct⟩ := Option.map_eq_some_iff.mp hfound
              obtain rfl := Sum.inr.inj hstruct
              obtain ⟨before, after, rfl, -⟩ := List.lookup_eq_some_iff.mp hlookup
              exact hstructs _ (List.mem_append_right before List.mem_cons_self)
          refine ⟨⟨⟨hrestNames ▸ hnew, htype.1, hdistinct⟩, ?_⟩,
            congrArg (element.name :: ·) hrestNames⟩
          refine List.forall_mem_cons.mpr ⟨hname, ?_⟩
          exact List.forall_mem_append.mpr ⟨htype.2, hinner⟩

end Members

/-! ## Accepted schemas -/

/-- The schemas that the generator accepts and whose code C accepts, up to what the included
headers declare and define: the names of structs and members are identifiers, and names of
their own. -/
structure SchemaDecl.Accepted (schema : SchemaDecl) (pref : CStr) : Prop where
  /-- with one, unbinders call `lookupNamespace`, which is nowhere defined -/
  targetNamespace : schema.targetNamespace = []
  binds : schema.toSchema.BindsPrefixes
  structNames : (schema.types.map fun decl => ctToStructName pref decl.name).Nodup
  structIdentifiers : ∀ decl ∈ schema.types,
    IsIdentifier (ctToStructName pref decl.name) ∧ ctToStructName pref decl.name ∉ templateNames
  /-- an element has a builtin type that the templates know, or a complex type -/
  elements : ∀ decl ∈ schema.types, ∀ element ∈ decl.elements,
    (resolve pref schema.toSchema.root [] element.type).isSome ∨
      (xsdTypeReferenceToQname schema.toSchema.root element.type).namespaceUri ≠ xsdNamespace ∧
        ∃ child ∈ schema.types, child.name = element.type
  attributes : ∀ decl ∈ schema.types, ∀ self ∈ decl.attributes,
    ∃ type, resolve pref schema.toSchema.root [] self.type = some (.inl type)
  memberNames : ∀ decl ∈ schema.types, (decl.memberNames pref schema.toSchema.root).Nodup
  memberIdentifiers : ∀ decl ∈ schema.types,
    ∀ name ∈ decl.memberNames pref schema.toSchema.root, IsIdentifier name
  /-- C has no struct without members -/
  members : ∀ decl ∈ schema.types, decl.elements ≠ [] ∨ decl.attributes ≠ []
  /-- the unbinder declares `buffer` and `child` for each of these, in one block -/
  buffers : ∀ decl ∈ schema.types, (decl.elements.countP fun element =>
    element.cardinality == .required && element.isNumber pref schema.toSchema.root) ≤ 1
  /-- the binder assigns these from a pointer to `int` -/
  arrays : ∀ decl ∈ schema.types, ∀ element ∈ decl.elements,
    element.cardinality = .array → element.isNumber pref schema.toSchema.root = false
  /-- the names of a document in ASCII; `xmlns` would be read back as a namespace -/
  isName : ∀ decl ∈ schema.types, (∀ element ∈ decl.elements, IsName element.name) ∧
    ∀ self ∈ decl.attributes, IsName self.name

namespace SchemaDecl

variable {schema : SchemaDecl} {pref : CStr}

theorem Accepted.names (h : schema.Accepted pref) : (schema.types.map (·.name)).Nodup :=
  List.Nodup.of_map (ctToStructName pref) (by rw [List.map_map]; exact h.structNames)

theorem sublist_memberNames {α : Type*} (name : α → CStr) (cardinality : α → Cardinality)
    (type : α → Option Builtin) (items : List α) :
    (items.map fun item => elementToCName (name item)).Sublist
      (items.flatMap fun item => memberNames (name item) (cardinality item) (type item)) := by
  induction items with
  | nil => exact List.Sublist.slnil
  | cons item items ih =>
      rw [List.map_cons, List.flatMap_cons, memberNames, List.cons_append]
      exact (ih.trans (List.sublist_append_right _ _)).cons_cons _

/-- Members of different names are elements of different names. -/
theorem Accepted.elementNames (h : schema.Accepted pref) {decl : TypeDecl}
    (hdecl : decl ∈ schema.types) : (decl.elements.map (·.name)).Nodup := by
  have hnodup := (List.nodup_append.mp (h.memberNames decl hdecl)).1
  have hnames := (sublist_memberNames _ _ _ _).nodup hnodup
  apply List.Nodup.of_map elementToCName
  rwa [List.map_map]

theorem Accepted.attributeNames (h : schema.Accepted pref) {decl : TypeDecl}
    (hdecl : decl ∈ schema.types) : (decl.attributes.map (·.name)).Nodup := by
  have hnodup := (List.nodup_append.mp (h.memberNames decl hdecl)).2.1
  have hnames := (sublist_memberNames _ (fun _ => .optional) _ _).nodup hnodup
  apply List.Nodup.of_map elementToCName
  rwa [List.map_map]

/-- A complex type is found by its name. -/
theorem Accepted.find_name (h : schema.Accepted pref) {decl : TypeDecl}
    (hdecl : decl ∈ schema.types) : schema.find decl.name = some decl := by
  rw [find]
  cases hfind : schema.types.find? (·.name == decl.name) with
  | none => exact absurd (beq_self_eq_true _) (List.find?_eq_none.mp hfind decl hdecl)
  | some other =>
      have hname : (other.name == decl.name) = true :=
        @List.find?_some _ (fun other : TypeDecl => other.name == decl.name) _ _ hfind
      have hmem := List.mem_of_find?_eq_some hfind
      rw [List.inj_on_of_nodup_map h.names hmem hdecl (beq_iff_eq.mp hname)]

/-- A struct is known by its name, and is what its declaration says. -/
def Declares (schema : SchemaDecl) (pref : CStr) (structs : List (CStr × StructType))
    (decl : TypeDecl) : Prop :=
  ∃ type, structs.lookup (ctToStructName pref decl.name) = some type ∧ type.Sound ∧
    ∀ more, decl.structType pref schema.toSchema.root (structs ++ more) = some type

theorem Declares.append {structs : List (CStr × StructType)} {decl : TypeDecl}
    (h : schema.Declares pref structs decl) (more : List (CStr × StructType)) :
    schema.Declares pref (structs ++ more) decl := by
  obtain ⟨type, hlookup, hsound, hstruct⟩ := h
  refine ⟨type, ?_, hsound, fun others => ?_⟩
  · rw [List.lookup_append, hlookup, Option.some_or]
  · rw [List.append_assoc]
    exact hstruct (more ++ others)

/-- A type of which all parts have been declared is declared. -/
theorem Accepted.declares_next (h : schema.Accepted pref) {structs : List (CStr × StructType)}
    (hstructs : ∀ struct ∈ structs, struct.2.Sound) {decl : TypeDecl}
    (hdecl : decl ∈ schema.types)
    (hnew : ctToStructName pref decl.name ∉ structs.map Prod.fst)
    (hchildren : ∀ child ∈ schema.types, child.name ∈ decl.elements.map (·.type) →
      schema.Declares pref structs child) :
    ∃ type, decl.structType pref schema.toSchema.root structs = some type ∧ type.Sound ∧
      schema.Declares pref (structs ++ [(ctToStructName pref decl.name, type)]) decl := by
  have helements : ∀ element ∈ decl.elements,
      (resolve pref schema.toSchema.root structs element.type).isSome := by
    intro element helement
    rcases h.elements decl hdecl element helement with hbuiltin | ⟨hcomplex, child, hchild, hname⟩
    · obtain ⟨found, hfound⟩ := Option.isSome_iff_exists.mp hbuiltin
      rw [← List.nil_append structs, resolve_append hfound]
      rfl
    · have hmem : child.name ∈ decl.elements.map (·.type) :=
        hname ▸ List.mem_map_of_mem helement
      obtain ⟨type, hlookup, -⟩ := hchildren child hchild hmem
      unfold resolve
      dsimp only
      rw [if_neg hcomplex, ← hname, hlookup]
      rfl
  obtain ⟨type, htype⟩ := TypeDecl.exists_structType helements (h.attributes decl hdecl)
  have hnow := htype []
  rw [List.append_nil] at hnow
  have hsound := TypeDecl.sound_structType hstructs (h.elementNames hdecl)
    (h.attributeNames hdecl) (h.isName decl hdecl) hnow
  refine ⟨type, hnow, hsound, type, ?_, hsound, fun more => ?_⟩
  · have hnone : structs.lookup (ctToStructName pref decl.name) = none := by
      apply List.lookup_eq_none_iff.mpr
      intro struct hstruct
      exact bne_iff_ne.mpr fun heq => hnew (heq ▸ List.mem_map_of_mem hstruct)
    rw [List.lookup_append, hnone, Option.none_or]
    exact List.lookup_cons_self
  · rw [List.append_assoc]
    exact htype _

/-- **Every struct is declared** where the template puts the types of a schema out: each
one when C knows all structs that it is made of. -/
theorem declareStructs_ends (h : schema.Accepted pref) {fuel : Nat} {declared : List ComplexType}
    (hdeclared : processComplexTypes schema.toSchema fuel schema.toSchema.root
      schema.toSchema.complexTypes [] = some declared) :
    ∃ structs, schema.declareStructs pref schema.toSchema.root declared [] = some structs ∧
      ∀ decl ∈ schema.types, schema.Declares pref structs decl := by
  have hnames : (schema.toSchema.complexTypes.map (·.name)).Nodup := by
    rw [toSchema, List.map_map]
    exact h.names
  obtain ⟨hnodup, hmem, hordered⟩ := declared_sound hnames h.binds.unprefixed hdeclared
  have hdecl : ∀ type ∈ declared, ∃ decl ∈ schema.types, decl.toComplexType = type :=
    fun type htype => List.mem_map.mp ((hmem type).mp htype)
  -- the types in front are declared, under their own names
  have hrun : ∀ rest before structs, declared = before ++ rest →
      structs.map Prod.fst = before.map (fun type => ctToStructName pref type.name) →
      (∀ struct ∈ structs, struct.2.Sound) →
      (∀ decl ∈ schema.types, decl.toComplexType ∈ before → schema.Declares pref structs decl) →
      ∃ final, schema.declareStructs pref schema.toSchema.root rest structs = some final ∧
        ∀ decl ∈ schema.types, decl.toComplexType ∈ declared →
          schema.Declares pref final decl := by
    intro rest
    induction rest with
    | nil =>
        intro before structs hsplit _ _ hbefore
        rw [List.append_nil] at hsplit
        exact ⟨structs, rfl, hsplit ▸ hbefore⟩
    | cons type rest ih =>
        intro before structs hsplit hkeys hsound hbefore
        obtain ⟨decl, hmemDecl, rfl⟩ := hdecl type
          (hsplit ▸ List.mem_append_right before List.mem_cons_self)
        have hnew : ctToStructName pref decl.name ∉ structs.map Prod.fst := by
          rw [hkeys]
          intro hkey
          obtain ⟨other, hother, hname⟩ := List.mem_map.mp hkey
          obtain ⟨otherDecl, hotherDecl, rfl⟩ :=
            hdecl other (hsplit ▸ List.mem_append_left _ hother)
          obtain rfl := List.inj_on_of_nodup_map h.structNames hotherDecl hmemDecl hname
          rw [hsplit] at hnodup
          exact (List.nodup_append.mp hnodup).2.2 _ hother _ List.mem_cons_self rfl
        have hchildren : ∀ child ∈ schema.types, child.name ∈ decl.elements.map (·.type) →
            schema.Declares pref structs child := fun child hchild hname =>
          hbefore child hchild (hordered before _ rest hsplit child.toComplexType
            (List.mem_map_of_mem hchild) hname)
        obtain ⟨struct, hstruct, hstructSound, hdeclares⟩ :=
          h.declares_next hsound hmemDecl hnew hchildren
        have hstep : schema.declareStructs pref schema.toSchema.root (decl.toComplexType :: rest)
            structs = schema.declareStructs pref schema.toSchema.root rest
              (structs ++ [(ctToStructName pref decl.name, struct)]) := by
          have hfind : schema.find decl.toComplexType.name = some decl := h.find_name hmemDecl
          rw [declareStructs, hfind, Option.bind_some, hstruct, Option.bind_some]
        rw [hstep]
        apply ih (before ++ [decl.toComplexType])
        · rw [hsplit, List.append_assoc, List.singleton_append]
        · rw [List.map_append, List.map_append, hkeys]
          rfl
        · exact List.forall_mem_append.mpr ⟨hsound, List.forall_mem_singleton.mpr hstructSound⟩
        · intro other hotherDecl hother
          rcases List.mem_append.mp hother with hold | hlast
          · exact (hbefore other hotherDecl hold).append _
          · have hname : other.name = decl.name :=
              congrArg ComplexType.name (List.mem_singleton.mp hlast)
            rw [List.inj_on_of_nodup_map h.names hotherDecl hmemDecl hname]
            exact hdeclares
  obtain ⟨structs, hends, hall⟩ := hrun declared [] [] rfl rfl (fun _ h => nomatch h)
    (fun _ _ h => nomatch h)
  refine ⟨structs, hends, fun decl hmemDecl => hall decl hmemDecl ?_⟩
  exact (hmem _).mpr (List.mem_map_of_mem hmemDecl)

/-- **What is read for a struct of a schema.** Once the structs of an accepted schema are
declared, a document that was written for any value of any of them, and that can be read,
gives every member the value it had: strings of elements as `libxml2` takes them, optional
numbers with their companion at one, attributes that the schema requires also where they
were not set, and arrays without their null pointers. -/
theorem schema_reread (h : schema.Accepted pref) {fuel : Nat} {declared : List ComplexType}
    (hdeclared : processComplexTypes schema.toSchema fuel schema.toSchema.root
      schema.toSchema.complexTypes [] = some declared) :
    ∃ structs, schema.declareStructs pref schema.toSchema.root declared [] = some structs ∧
      ∀ decl ∈ schema.types, ∃ type,
        structs.lookup (ctToStructName pref decl.name) = some type ∧
        decl.structType pref schema.toSchema.root structs = some type ∧
        ∀ (xml : XmlWriter) (platform : BindingPlatform) (rootName : CStr) (self : type.Struct)
            (text : CStr) (result : type.Struct), xml.Documented → IsName rootName →
          (∀ s ∈ type.contents self, IsText s) → (∀ s ∈ type.attributes self, IsText s) →
          type.marshal xml platform.toTimePlatform rootName self = some text →
          type.unmarshal xml platform.tmp text = some result →
          result = type.reread xml platform.toTimePlatform self := by
  obtain ⟨structs, hends, hall⟩ := declareStructs_ends h hdeclared
  refine ⟨structs, hends, fun decl hdecl => ?_⟩
  obtain ⟨type, hlookup, ⟨hdistinct, hnames⟩, hstruct⟩ := hall decl hdecl
  refine ⟨type, hlookup, List.append_nil structs ▸ hstruct [], ?_⟩
  intro xml platform rootName self text result hxml hroot hcontents htexts hmarshal hresult
  exact StructType.eq_reread_of_unmarshal hxml hdistinct hnames hroot platform.tmp hcontents htexts
    hmarshal hresult

/-- **Structs of a schema make the round trip.** For every accepted schema whose types the
template puts out, C knows every struct that is used when it is used, and the document that
`_marshal` writes for a well-formed value of any of the structs is read by `_unmarshal` as a
value that says the same. -/
theorem schema_round_trip (h : schema.Accepted pref) {fuel : Nat} {declared : List ComplexType}
    (hdeclared : processComplexTypes schema.toSchema fuel schema.toSchema.root
      schema.toSchema.complexTypes [] = some declared) :
    ∃ structs, schema.declareStructs pref schema.toSchema.root declared [] = some structs ∧
      ∀ decl ∈ schema.types, ∃ type,
        structs.lookup (ctToStructName pref decl.name) = some type ∧
        decl.structType pref schema.toSchema.root structs = some type ∧
        ∀ (xml : XmlWriter) (platform : BindingPlatform) (rootName : CStr) (self : type.Struct)
            (text : CStr), xml.Documented → IsName rootName → type.WellFormed self →
          type.marshal xml platform.toTimePlatform rootName self = some text →
          (type.unmarshal xml platform.tmp text).map type.meaning = some (type.meaning self) := by
  obtain ⟨structs, hends, hall⟩ := declareStructs_ends h hdeclared
  refine ⟨structs, hends, fun decl hdecl => ?_⟩
  obtain ⟨type, hlookup, ⟨hdistinct, hnames⟩, hstruct⟩ := hall decl hdecl
  refine ⟨type, hlookup, List.append_nil structs ▸ hstruct [], ?_⟩
  intro xml platform rootName self text hxml hroot hself hmarshal
  exact StructType.unmarshal_of_wellFormed hxml platform hdistinct hnames hroot hself hmarshal

end SchemaDecl

/-! ## The schema of the policies -/

/-- An element that occurs once. -/
def requiredElement (name type : String) : ElementDecl :=
  ⟨bytes name, bytes type, some 1, some (.times 1)⟩

/-- An element that may occur. -/
def optionalElement (name type : String) : ElementDecl :=
  ⟨bytes name, bytes type, some 0, some (.times 1)⟩

/-- An element that occurs any number of times. -/
def unboundedElement (name type : String) : ElementDecl :=
  ⟨bytes name, bytes type, some 0, some .unbounded⟩

/-- `policy_no_ns.xsd` -/
def policySchemaDecl : SchemaDecl where
  targetNamespace := []
  namespaces := policyNamespaces
  types :=
    [{ name := bytes "policyType"
       namespaces := policyNamespaces
       elements :=
        [optionalElement "expiration" "xsd:dateTime", optionalElement "max-uploads" "xsd:int",
          optionalElement "max-downloads" "xsd:int", optionalElement "source" "sourceType",
          optionalElement "content-length-range" "contentLengthRangeType",
          unboundedElement "form-field" "formFieldType"]
       attributes := [] },
      { name := bytes "sourceType"
        namespaces := policyNamespaces
        elements :=
          [unboundedElement "allow" "xsd:string", unboundedElement "disallow" "xsd:string"]
        attributes := [] },
      { name := bytes "formFieldType"
        namespaces := policyNamespaces
        elements :=
          [unboundedElement "matches" "xsd:string", unboundedElement "eq" "xsd:string",
            unboundedElement "starts-with" "xsd:string", unboundedElement "ends-with" "xsd:string",
            unboundedElement "contains" "xsd:string"]
        attributes :=
          [⟨bytes "name", bytes "xsd:string", true⟩,
            ⟨bytes "optional", bytes "xsd:boolean", false⟩] },
      { name := bytes "contentLengthRangeType"
        namespaces := policyNamespaces
        elements := []
        attributes :=
          [⟨bytes "from", bytes "xsd:int", true⟩, ⟨bytes "to", bytes "xsd:int", true⟩] },
      { name := bytes "listAccessTokenResultType"
        namespaces := policyNamespaces
        elements := [requiredElement "access-tokens-list" "accessTokensListType"]
        attributes := [] },
      { name := bytes "accessTokensListType"
        namespaces := policyNamespaces
        elements := [unboundedElement "access-token" "accessTokenType"]
        attributes := [] },
      { name := bytes "accessTokenType"
        namespaces := policyNamespaces
        elements :=
          [requiredElement "access-token-id" "xsd:string",
            optionalElement "expiration" "xsd:dateTime", optionalElement "max-uploads" "xsd:int",
            optionalElement "max-downloads" "xsd:int", optionalElement "source" "sourceType",
            requiredElement "content-length-range" "contentLengthRangeType",
            optionalElement "uid" "xsd:string", optionalElement "object-id" "xsd:string",
            optionalElement "path" "xsd:string"]
        attributes := [] }]

theorem policySchemaDecl_toSchema : policySchemaDecl.toSchema = policySchema := rfl

theorem policySchemaDecl_accepted : policySchemaDecl.Accepted (bytes "Atmos") where
  targetNamespace := rfl
  binds := policySchemaDecl_toSchema ▸ policySchema_bindsPrefixes
  structNames := by decide +kernel
  structIdentifiers := by decide +kernel
  elements := by decide +kernel
  attributes := by
    have hsome : ∀ decl ∈ policySchemaDecl.types, ∀ self ∈ decl.attributes,
        (resolve (bytes "Atmos") policySchemaDecl.toSchema.root [] self.type).any Sum.isLeft := by
      decide +kernel
    intro decl hdecl self hself
    have hleft := hsome decl hdecl self hself
    cases hfound : resolve (bytes "Atmos") policySchemaDecl.toSchema.root [] self.type with
    | none =>
        rw [hfound] at hleft
        cases hleft
    | some found =>
        cases found with
        | inl type => exact ⟨type, rfl⟩
        | inr type =>
            rw [hfound] at hleft
            cases hleft
  memberNames := by decide +kernel
  memberIdentifiers := by decide +kernel
  members := by decide +kernel
  buffers := by decide +kernel
  arrays := by decide +kernel
  isName := by decide +kernel

theorem policySchemaDecl_ends :
    ∃ declared, processComplexTypes policySchemaDecl.toSchema 12 policySchemaDecl.toSchema.root
      policySchemaDecl.toSchema.complexTypes [] = some declared := by
  have hsome : (processComplexTypes policySchemaDecl.toSchema 12 policySchemaDecl.toSchema.root
      policySchemaDecl.toSchema.complexTypes []).isSome := by decide +kernel
  exact Option.isSome_iff_exists.mp hsome

end Atmos
