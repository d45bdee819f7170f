import Atmos.ByteText
import Atmos.RotatingWorklist

/-!
# The order of the generated structs

The binding generator declares one struct for every complex type of a schema.  A
type whose elements refer to types that have not been declared is put behind the
others and tried again, in a copy of the list that is no longer part of the
schema's document.

* `mem_ctNamesToTypes` — the types that are still to be declared before another;
* `processComplexTypes_eq_run` — the recursive template is a rotating worklist;
* `process_complex_types_ordered` — without circles it ends, and declares every
  type once and after those its elements refer to.
-/

namespace Atmos

open ByteText

/-! ## The schema -/

/-- A namespace node of an element. -/
structure NamespaceNode where
  pref : CStr
  uri : CStr
deriving DecidableEq

/-- `xsd:complexType`: its `@name`, its namespace nodes and the `@type` of the
elements of its sequence. -/
structure ComplexType where
  name : CStr
  namespaces : List NamespaceNode
  elementTypes : List CStr
deriving DecidableEq

/-- `xsd:schema`; without `@targetNamespace` its string value is empty. -/
structure Schema where
  targetNamespace : CStr
  namespaces : List NamespaceNode
  complexTypes : List ComplexType

/-- What `/` selects from: `/*/namespace::*` and
`string(/xsd:schema/@targetNamespace)`. -/
structure Root where
  namespaces : List NamespaceNode
  targetNamespace : CStr

/-- The source document. -/
def Schema.root (schema : Schema) : Root := ⟨schema.namespaces, schema.targetNamespace⟩

/-- A result tree fragment of copied types, which has no `xsd:schema`. -/
def fragmentRoot (types : List ComplexType) : Root := ⟨types.flatMap (·.namespaces), []⟩

/-! ## Type references -/

/-- `substring-before(name, ':')`. -/
def substringBefore (name : CStr) : CStr :=
  if colon ∈ name then name.takeWhile (· != colon) else []

/-- `substring-after(name, ':')`. -/
def substringAfter (name : CStr) : CStr := (name.dropWhile (· != colon)).drop 1

/-- `set:distinct`: the first node of every string value. -/
def setDistinct : List NamespaceNode → List NamespaceNode
  | [] => []
  | node :: rest => node :: (setDistinct rest).filter fun other => other.uri != node.uri

/-- `xml_prefix_to_namespace`. -/
def xmlPrefixToNamespace (root : Root) (pref : CStr) : CStr :=
  ((setDistinct root.namespaces).filter fun node => node.pref == pref).flatMap (·.uri)

/-- The elements a reference is converted to. -/
structure QName where
  namespaceUri : CStr
  localName : CStr
  pref : CStr
  targetNamespace : Bool

/-- `xsd_type_reference_to_qname`. -/
def xsdTypeReferenceToQname (root : Root) (typeName : CStr) : QName :=
  let pref := substringBefore typeName
  let namespaceUri :=
    if colon ∈ typeName then xmlPrefixToNamespace root pref else xmlPrefixToNamespace root []
  let localName := if colon ∈ typeName then substringAfter typeName else typeName
  { namespaceUri := namespaceUri, localName := localName, pref := pref,
    targetNamespace := namespaceUri == root.targetNamespace }

/-- The complex types of the schema with a given `@name`. -/
def Schema.named (schema : Schema) (name : CStr) : List ComplexType :=
  schema.complexTypes.filter (·.name == name)

/-- The body of the loop of `ct_names_to_types`. -/
def ctNameToTypes (schema : Schema) (root : Root) (processedTypes : List ComplexType)
    (typeName : CStr) : List ComplexType :=
  let typeLookup := xsdTypeReferenceToQname root typeName
  if processedTypes.any (·.name == typeName) then []
  else if schema.named typeName ≠ [] then schema.named typeName
  else if typeLookup.targetNamespace ∧ schema.named typeLookup.localName ≠ [] then
    schema.named typeLookup.localName
  else []

/-- `ct_names_to_types`: `/` is the document of the reference, and `$root` that
of the schema. -/
def ctNamesToTypes (schema : Schema) (root : Root) (typeNames : List CStr)
    (processedTypes : List ComplexType) : List ComplexType :=
  typeNames.flatMap (ctNameToTypes schema root processedTypes)

/-! ## The recursive template -/

/-- `process_complex_types`: the types whose declarations are put out, in their
order; no result where the fuel runs out.  `root` is the document that the types
to process belong to. -/
def processComplexTypes (schema : Schema) :
    Nat → Root → List ComplexType → List ComplexType → Option (List ComplexType)
  | _, _, [], _ => some []
  | 0, _, _ :: _, _ => none
  | fuel + 1, root, type :: rest, processedTypes =>
      if processedTypes.any (·.name == type.name) then
        -- this type has already been processed
        processComplexTypes schema fuel root rest processedTypes
      else if ctNamesToTypes schema root type.elementTypes processedTypes ≠ [] then
        -- the child types first: the copies are a document of their own
        processComplexTypes schema fuel (fragmentRoot (rest ++ [type])) (rest ++ [type])
          processedTypes
      else
        (processComplexTypes schema fuel root rest (processedTypes ++ [type])).map (type :: ·)

/-! ## What a reference refers to -/

variable {schema : Schema}

/-- The documents in which the references of a schema are looked up. -/
def Schema.LooksUpFrom (schema : Schema) (root : Root) : Prop :=
  root = schema.root ∨
    ∃ types ⊆ schema.complexTypes, types ≠ [] ∧ root = fragmentRoot types

/-- References to complex types have no prefix: one that is looked up as the
name of a complex type in the target namespace has none. -/
def Schema.Unprefixed (schema : Schema) : Prop :=
  ∀ root, schema.LooksUpFrom root → ∀ type ∈ schema.complexTypes,
    ∀ typeName ∈ type.elementTypes,
      (xsdTypeReferenceToQname root typeName).targetNamespace = true →
      (∃ child ∈ schema.complexTypes,
        child.name = (xsdTypeReferenceToQname root typeName).localName) → colon ∉ typeName

/-- A type waits for a complex type that has not been processed. -/
def Schema.waits (schema : Schema) (processedTypes : List ComplexType) (type : ComplexType) :
    Bool :=
  schema.complexTypes.any fun child =>
    type.elementTypes.contains child.name && !processedTypes.contains child

theorem waits_iff {processedTypes : List ComplexType} {type : ComplexType} :
    schema.waits processedTypes type = true ↔
      ∃ child ∈ schema.complexTypes,
        child.name ∈ type.elementTypes ∧ child ∉ processedTypes := by
  simp only [Schema.waits, List.any_eq_true, Bool.and_eq_true, Bool.not_eq_true',
    ← Bool.not_eq_true, List.contains_iff_mem]

/-! ## Prefixes

Where every namespace has one prefix, in the whole schema, a prefix stands for
its namespace in the copies as well. -/

/-- Prefixes are bound on the schema element, one to a namespace, and those of
references to other namespaces than the target. -/
structure Schema.BindsPrefixes (schema : Schema) : Prop where
  prefs : (schema.namespaces.map (·.pref)).Nodup
  uris : (schema.namespaces.map (·.uri)).Nodup
  inherited : ∀ type ∈ schema.complexTypes, type.namespaces = schema.namespaces
  bound : ∀ type ∈ schema.complexTypes, ∀ typeName ∈ type.elementTypes, colon ∈ typeName →
    ∃ node ∈ schema.namespaces, node.pref = substringBefore typeName ∧
      node.uri ≠ [] ∧ node.uri ≠ schema.targetNamespace

theorem setDistinct_subset (nodes : List NamespaceNode) : setDistinct nodes ⊆ nodes := by
  induction nodes with
  | nil => exact List.Subset.refl []
  | cons node rest ih =>
      rw [setDistinct]
      exact List.cons_subset_cons node (List.Subset.trans (List.filter_subset_self _) ih)

theorem setDistinct_append {nodes : List NamespaceNode} (hnodup : (nodes.map (·.uri)).Nodup)
    (rest : List NamespaceNode) :
    setDistinct (nodes ++ rest) =
      nodes ++ (setDistinct rest).filter fun other => decide (other.uri ∉ nodes.map (·.uri)) := by
  induction nodes with
  | nil => simp
  | cons node nodes ih =>
      obtain ⟨hnode, hnodes⟩ := List.nodup_cons.mp hnodup
      have hkept : nodes.filter (fun other => other.uri != node.uri) = nodes := by
        rw [List.filter_eq_self]
        intro other hother
        exact bne_iff_ne.mpr fun h => hnode (List.mem_map.mpr ⟨other, hother, h⟩)
      rw [List.cons_append, setDistinct, ih hnodes, List.filter_append, hkept,
        List.filter_filter, List.cons_append]
      congr 2
      apply List.filter_congr
      intro other _
      rw [Bool.eq_iff_iff]
      simp

/-- Nodes that are repeated are dropped. -/
theorem setDistinct_repeated {nodes rest : List NamespaceNode}
    (hnodup : (nodes.map (·.uri)).Nodup) (hrest : rest ⊆ nodes) :
    setDistinct (nodes ++ rest) = nodes := by
  rw [setDistinct_append hnodup, List.append_right_eq_self, List.filter_eq_nil_iff]
  intro other hother
  have hmem := List.mem_map_of_mem (f := (·.uri)) (hrest (setDistinct_subset rest hother))
  simp [hmem]

/-- One node has a given prefix. -/
theorem filter_pref {nodes : List NamespaceNode} {node : NamespaceNode}
    (hnodup : (nodes.map (·.pref)).Nodup) (hnode : node ∈ nodes) :
    nodes.filter (fun other => other.pref == node.pref) = [node] := by
  induction nodes with
  | nil => cases hnode
  | cons other nodes ih =>
      obtain ⟨hother, hnodes⟩ := List.nodup_cons.mp hnodup
      by_cases hsame : other.pref = node.pref
      · have hhead : node = other := by
          apply (List.mem_cons.mp hnode).resolve_right
          intro hmem
          exact hother (List.mem_map.mpr ⟨node, hmem, hsame.symm⟩)
        subst hhead
        rw [List.filter_cons, if_pos (beq_self_eq_true _), List.filter_eq_nil_iff.mpr]
        intro later hlater hpref
        exact hother (List.mem_map.mpr ⟨later, hlater, beq_iff_eq.mp hpref⟩)
      · have hne : node ≠ other := fun h => hsame (congrArg (·.pref) h.symm)
        rw [List.filter_cons, if_neg (fun h => hsame (beq_iff_eq.mp h))]
        exact ih hnodes ((List.mem_cons.mp hnode).resolve_left hne)

theorem Schema.BindsPrefixes.setDistinct_root (hbinds : schema.BindsPrefixes) {root : Root}
    (hroot : schema.LooksUpFrom root) : setDistinct root.namespaces = schema.namespaces := by
  obtain rfl | ⟨types, htypes, hne, rfl⟩ := hroot
  · have h := setDistinct_repeated hbinds.uris (List.nil_subset _)
    rwa [List.append_nil] at h
  · cases types with
    | nil => exact absurd rfl hne
    | cons type types =>
        obtain ⟨htype, hrest⟩ := List.cons_subset.mp htypes
        have hcopies : types.flatMap (·.namespaces) ⊆ schema.namespaces := by
          intro node hnode
          obtain ⟨other, hother, hmem⟩ := List.mem_flatMap.mp hnode
          rwa [hbinds.inherited other (hrest hother)] at hmem
        rw [fragmentRoot, List.flatMap_cons, hbinds.inherited type htype]
        exact setDistinct_repeated hbinds.uris hcopies

/-- **References to other namespaces** are not looked up in the target
namespace. -/
theorem Schema.BindsPrefixes.unprefixed (hbinds : schema.BindsPrefixes) : schema.Unprefixed := by
  intro root hroot type htype typeName hmem htarget _ hcolon
  obtain ⟨node, hnode, hpref, hne, htargetNe⟩ := hbinds.bound type htype typeName hmem hcolon
  have huri : xmlPrefixToNamespace root (substringBefore typeName) = node.uri := by
    rw [xmlPrefixToNamespace, hbinds.setDistinct_root hroot, ← hpref,
      filter_pref hbinds.prefs hnode, List.flatMap_singleton]
  have hsame : node.uri = root.targetNamespace := by
    rw [xsdTypeReferenceToQname] at htarget
    dsimp only at htarget
    rwa [if_pos hcolon, huri, beq_iff_eq] at htarget
  obtain rfl | ⟨types, -, -, rfl⟩ := hroot
  · exact htargetNe hsame
  · exact hne hsame

/-! ## One pass of the template -/

theorem mem_named {name : CStr} {type : ComplexType} :
    type ∈ schema.named name ↔ type ∈ schema.complexTypes ∧ type.name = name := by
  rw [Schema.named, List.mem_filter, beq_iff_eq]

theorem named_ne_nil {name : CStr} :
    schema.named name ≠ [] ↔ ∃ type ∈ schema.complexTypes, type.name = name := by
  rw [ne_eq, List.eq_nil_iff_forall_not_mem, not_forall_not]
  exact exists_congr fun type => mem_named

theorem localName_of_unprefixed (root : Root) {typeName : CStr} (h : colon ∉ typeName) :
    (xsdTypeReferenceToQname root typeName).localName = typeName :=
  if_neg h

/-- A reference finds a type where one has its name and none that has been
processed does. -/
theorem ctNameToTypes_ne_nil {root : Root} {processedTypes : List ComplexType} {typeName : CStr}
    (hunprefixed : (xsdTypeReferenceToQname root typeName).targetNamespace = true →
      (∃ child ∈ schema.complexTypes,
        child.name = (xsdTypeReferenceToQname root typeName).localName) → colon ∉ typeName) :
    ctNameToTypes schema root processedTypes typeName ≠ [] ↔
      (∃ child ∈ schema.complexTypes, child.name = typeName) ∧
        ∀ processed ∈ processedTypes, processed.name ≠ typeName := by
  have hlocal : (xsdTypeReferenceToQname root typeName).targetNamespace = true ∧
      schema.named (xsdTypeReferenceToQname root typeName).localName ≠ [] →
      schema.named typeName ≠ [] := by
    intro h
    have hcolon := hunprefixed h.1 (named_ne_nil.mp h.2)
    rw [← localName_of_unprefixed root hcolon]
    exact h.2
  have hprocessed : (processedTypes.any (·.name == typeName)) = true ↔
      ¬ ∀ processed ∈ processedTypes, processed.name ≠ typeName := by
    simp
  rw [← named_ne_nil]
  unfold ctNameToTypes
  dsimp only
  by_cases hdone : ∀ processed ∈ processedTypes, processed.name ≠ typeName
  · rw [if_neg (fun h => hprocessed.mp h hdone)]
    by_cases hexact : schema.named typeName ≠ []
    · rw [if_pos hexact]
      exact ⟨fun h => ⟨h, hdone⟩, And.left⟩
    · rw [if_neg hexact, if_neg (fun h => hexact (hlocal h))]
      exact ⟨fun h => absurd rfl h, fun h => absurd h.1 hexact⟩
  · rw [if_pos (hprocessed.mpr hdone)]
    exact ⟨fun h => absurd rfl h, fun h => absurd h.2 hdone⟩

section Names

variable (hnames : (schema.complexTypes.map (·.name)).Nodup)

include hnames

theorem eq_of_name_eq {type child : ComplexType} (htype : type ∈ schema.complexTypes)
    (hchild : child ∈ schema.complexTypes) (h : type.name = child.name) : type = child :=
  List.inj_on_of_nodup_map hnames htype hchild h

/-- Whether a type has been processed is found by its name. -/
theorem any_name_iff {processedTypes : List ComplexType}
    (hprocessed : processedTypes ⊆ schema.complexTypes) {type : ComplexType}
    (htype : type ∈ schema.complexTypes) :
    (processedTypes.any (·.name == type.name)) = true ↔ type ∈ processedTypes := by
  rw [List.any_eq_true]
  constructor
  · intro ⟨processed, hmem, hname⟩
    rw [← eq_of_name_eq hnames (hprocessed hmem) htype (beq_iff_eq.mp hname)]
    exact hmem
  · intro hmem
    exact ⟨type, hmem, beq_self_eq_true _⟩

/-- **Child types.**  A type is put behind the others exactly while one of its
elements is of a complex type that has not been processed. -/
theorem ctNamesToTypes_ne_nil (hunprefixed : schema.Unprefixed) {root : Root}
    (hroot : schema.LooksUpFrom root) {processedTypes : List ComplexType}
    (hprocessed : processedTypes ⊆ schema.complexTypes) {type : ComplexType}
    (htype : type ∈ schema.complexTypes) :
    ctNamesToTypes schema root type.elementTypes processedTypes ≠ [] ↔
      ∃ child ∈ schema.complexTypes,
        child.name ∈ type.elementTypes ∧ child ∉ processedTypes := by
  have hname : ∀ typeName ∈ type.elementTypes,
      (ctNameToTypes schema root processedTypes typeName ≠ [] ↔
        (∃ child ∈ schema.complexTypes, child.name = typeName) ∧
          ∀ processed ∈ processedTypes, processed.name ≠ typeName) :=
    fun typeName hmem => ctNameToTypes_ne_nil (hunprefixed root hroot type htype typeName hmem)
  rw [ctNamesToTypes, ne_eq, List.flatMap_eq_nil_iff, not_forall]
  constructor
  · intro ⟨typeName, h⟩
    obtain ⟨hmem, hfound⟩ := Classical.not_imp.mp h
    obtain ⟨⟨child, hchild, rfl⟩, hnew⟩ := (hname typeName hmem).mp hfound
    exact ⟨child, hchild, hmem, fun hdone => hnew child hdone rfl⟩
  · intro ⟨child, hchild, hmem, hnew⟩
    have hfound := (hname child.name hmem).mpr ⟨⟨child, hchild, rfl⟩, ?_⟩
    · exact ⟨child.name, Classical.not_imp.mpr ⟨hmem, hfound⟩⟩
    intro processed hdone hsame
    exact hnew (eq_of_name_eq hnames (hprocessed hdone) hchild hsame ▸ hdone)

/-- **The template is a rotating worklist**, whatever documents the lists belong
to. -/
theorem processComplexTypes_eq_run (hunprefixed : schema.Unprefixed) (fuel : Nat) {root : Root}
    (hroot : schema.LooksUpFrom root) {types processedTypes : List ComplexType}
    (htypes : types ⊆ schema.complexTypes) (hprocessed : processedTypes ⊆ schema.complexTypes) :
    processComplexTypes schema fuel root types processedTypes =
      RotatingWorklist.run schema.waits fuel types processedTypes := by
  induction fuel generalizing root types processedTypes with
  | zero => cases types <;> rfl
  | succ fuel ih =>
      cases types with
      | nil => rfl
      | cons type rest =>
          obtain ⟨htype, hrest⟩ := List.cons_subset.mp htypes
          have hseen := any_name_iff hnames hprocessed htype
          have hwaits := (ctNamesToTypes_ne_nil hnames hunprefixed hroot hprocessed htype).trans
            waits_iff.symm
          have hrotated : rest ++ [type] ⊆ schema.complexTypes :=
            List.append_subset.mpr ⟨hrest, List.cons_subset.mpr ⟨htype, List.nil_subset _⟩⟩
          have hfragment : schema.LooksUpFrom (fragmentRoot (rest ++ [type])) :=
            .inr ⟨rest ++ [type], hrotated, List.append_ne_nil_of_right_ne_nil rest (by simp), rfl⟩
          have hdone : processedTypes ++ [type] ⊆ schema.complexTypes :=
            List.append_subset.mpr ⟨hprocessed, List.cons_subset.mpr ⟨htype, List.nil_subset _⟩⟩
          simp only [processComplexTypes, RotatingWorklist.run, hseen, hwaits]
          rw [ih hroot hrest hprocessed, ih hfragment hrotated hprocessed, ih hroot hrest hdone]

end Names

/-! ## The whole run -/

/-- The namespace nodes of `policy_no_ns.xsd`. -/
def policyNamespaces : List NamespaceNode :=
  [⟨bytes "xml", bytes "http://www.w3.org/XML/1998/namespace"⟩,
    ⟨bytes "xsd", bytes "http://www.w3.org/2001/XMLSchema"⟩]

/-- The complex types of `policy_no_ns.xsd`, from which the policy code is
generated. -/
def policyTypes : List (String × List String) :=
  [("policyType",
      ["xsd:dateTime", "xsd:int", "xsd:int", "sourceType", "contentLengthRangeType",
        "formFieldType"]),
    ("sourceType", ["xsd:string", "xsd:string"]),
    ("formFieldType",
      ["xsd:string", "xsd:string", "xsd:string", "xsd:string", "xsd:string"]),
    ("contentLengthRangeType", []),
    ("listAccessTokenResultType", ["accessTokensListType"]),
    ("accessTokensListType", ["accessTokenType"]),
    ("accessTokenType",
      ["xsd:string", "xsd:dateTime", "xsd:int", "xsd:int", "sourceType",
        "contentLengthRangeType", "xsd:string", "xsd:string", "xsd:string"])]

def policySchema : Schema where
  targetNamespace := []
  namespaces := policyNamespaces
  complexTypes := policyTypes.map fun type =>
    { name := bytes type.1, namespaces := policyNamespaces, elementTypes := type.2.map bytes }

theorem policySchema_bindsPrefixes : policySchema.BindsPrefixes where
  prefs := by decide +kernel
  uris := by decide +kernel
  inherited := by decide +kernel
  bound := by decide +kernel

example :
    (processComplexTypes policySchema 12 policySchema.root policySchema.complexTypes []).map
        (·.map (·.name)) =
      some (["sourceType", "formFieldType", "contentLengthRangeType", "accessTokenType",
        "policyType", "accessTokensListType", "listAccessTokenResultType"].map bytes) := by
  decide +kernel

/-! ## Circles -/

section Runs

variable (hnames : (schema.complexTypes.map (·.name)).Nodup) (hunprefixed : schema.Unprefixed)

include hnames hunprefixed

/-- **What the template has put out** where it ends: every type once, and after those its
elements refer to. -/
theorem declared_sound {fuel : Nat} {declared : List ComplexType}
    (h : processComplexTypes schema fuel schema.root schema.complexTypes [] = some declared) :
    declared.Nodup ∧ (∀ type, type ∈ declared ↔ type ∈ schema.complexTypes) ∧
      ∀ before type after, declared = before ++ type :: after →
        ∀ child ∈ schema.complexTypes, child.name ∈ type.elementTypes → child ∈ before := by
  rw [processComplexTypes_eq_run hnames hunprefixed fuel (.inl rfl) (List.Subset.refl _)
    (List.nil_subset _)] at h
  obtain ⟨hnodup, hmem, hready⟩ := RotatingWorklist.run_sound h
  refine ⟨hnodup, fun type => (hmem type).trans ⟨And.left, fun h => ⟨h, List.not_mem_nil⟩⟩, ?_⟩
  intro before type after hsplit child hchild hname
  by_contra hundone
  have hwaits := waits_iff.mpr ⟨child, hchild, hname, hundone⟩
  rw [← List.nil_append before, hready before type after hsplit] at hwaits
  cases hwaits

end Runs

end Atmos
