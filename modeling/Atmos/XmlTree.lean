import Mathlib.Data.List.TakeWhile
import Atmos.ByteText

/-!
# XML trees

The nodes of a parsed document, and what a program gets from `libxml2` for one
of them.

* `Node.content` — the text of a node and of everything inside it;
* `elements` — the children that are elements;
* `foldl_items` — a loop over the children that skips some of them.
-/

namespace XmlTree

open ByteText

/-- A node of a document; comments, instructions and the like are `other`. -/
inductive Node where
  | element (name : CStr) (children : List Node)
  | text (content : CStr)
  | other

namespace Node

/-- What is done with an element, given its name and its children; other nodes
are skipped. -/
def onElement {α : Type*} (node : Node) (skip : α) (visit : CStr → List Node → α) : α :=
  match node with
  | element name children => visit name children
  | _ => skip

/-- The children of a node; a text has none. -/
def children (node : Node) : List Node := node.onElement [] fun _ children => children

/-- Whether a node is an element. -/
def isElement (node : Node) : Bool := node.onElement false fun _ _ => true

theorem onElement_of_not {α : Type*} {node : Node} (h : node.isElement = false) (skip : α)
    (visit : CStr → List Node → α) : node.onElement skip visit = skip := by
  cases node with
  | element name children => cases h
  | _ => rfl

mutual

/-- The text of a node. -/
def content : Node → CStr
  | element _ children => contents children
  | text content => content
  | other => []

/-- The text of some nodes. -/
def contents : List Node → CStr
  | [] => []
  | child :: children => child.content ++ contents children

end

/-- An element that holds a text, if it is not empty. -/
def textElement (name value : CStr) : Node :=
  .element name (if value = [] then [] else [.text value])

@[simp] theorem content_textElement (name value : CStr) :
    (textElement name value).content = value := by
  unfold textElement
  split
  · rename_i hnil
    rw [hnil, content, contents]
  · rw [content, contents, contents, content, List.append_nil]

end Node

/-- The children that are elements. -/
def elements (children : List Node) : List Node := children.filter Node.isElement

/-- A loop that leaves its state alone at all other nodes sees the elements
only. -/
theorem foldl_elements {ρ : Type*} {step : ρ → Node → ρ}
    (h : ∀ st child, child.isElement = false → step st child = st) (children : List Node)
    (st : ρ) : children.foldl step st = (elements children).foldl step st := by
  induction children generalizing st with
  | nil => rfl
  | cons child children ih =>
      rw [elements, List.filter_cons, List.foldl_cons]
      cases helement : child.isElement with
      | true => exact ih (step st child)
      | false =>
          rw [h st child helement, if_neg (by decide)]
          exact ih st

section Loops

variable {ρ ι κ : Type*} {item : κ → Option ι}

/-- **A loop over the children** that does something with some of them is a loop
over what it takes from these. -/
theorem foldl_items {step : ρ → κ → ρ} {visit : ρ → ι → ρ}
    (h : ∀ st child, step st child = (item child).elim st (visit st)) (children : List κ)
    (st : ρ) : children.foldl step st = (children.filterMap item).foldl visit st := by
  induction children generalizing st with
  | nil => rfl
  | cons child children ih =>
      rw [List.foldl_cons, h, ih]
      cases hitem : item child with
      | none => rw [List.filterMap_cons_none hitem, Option.elim_none]
      | some x => rw [List.filterMap_cons_some hitem, Option.elim_some, List.foldl_cons]

/-- The same for a loop that can fail. -/
theorem foldlM_items {step : ρ → κ → Option ρ} {visit : ρ → ι → Option ρ}
    (h : ∀ st child, step st child = (item child).elim (some st) (visit st)) (children : List κ)
    (st : ρ) : children.foldlM step st = (children.filterMap item).foldlM visit st := by
  induction children generalizing st with
  | nil => rfl
  | cons child children ih =>
      rw [List.foldlM_cons, h]
      cases hitem : item child with
      | none =>
          rw [List.filterMap_cons_none hitem]
          exact ih st
      | some x =>
          rw [List.filterMap_cons_some hitem, List.foldlM_cons, Option.elim_some]
          cases visit st x with
          | none => rfl
          | some next => exact ih next

/-- **A run over all items** whose results are each related to their item, if
every item has such a result. -/
theorem mapM_forall₂_iff {f : κ → Option ι} {R : κ → ι → Prop} (items : List κ) :
    (∃ results, items.mapM f = some results ∧ List.Forall₂ R items results) ↔
      ∀ x ∈ items, ∃ result, f x = some result ∧ R x result := by
  induction items with
  | nil => simp
  | cons x items ih =>
      rw [List.forall_mem_cons, ← ih]
      constructor
      · rintro ⟨results, hresults, hrelated⟩
        rw [List.mapM_cons] at hresults
        obtain ⟨result, hresult, hrest⟩ := Option.bind_eq_some_iff.mp hresults
        obtain ⟨others, hothers, hcons⟩ := Option.bind_eq_some_iff.mp hrest
        obtain rfl := Option.some.inj hcons
        obtain ⟨hfirst, hrelated⟩ := List.forall₂_cons.mp hrelated
        exact ⟨⟨result, hresult, hfirst⟩, others, hothers, hrelated⟩
      · rintro ⟨⟨result, hresult, hfirst⟩, others, hothers, hrelated⟩
        refine ⟨result :: others, ?_, List.Forall₂.cons hfirst hrelated⟩
        rw [List.mapM_cons, hresult, hothers]
        rfl

end Loops

/-- The function of `libxml2` that reads the text of a node. -/
structure XmlText where
  /-- `xmlNodeGetContent` -/
  nodeGetContent : Node → Option CStr

/-- The documented behaviour, without allocation failures. -/
structure XmlText.Documented (xml : XmlText) : Prop where
  content : ∀ node, xml.nodeGetContent node = some node.content

/-- `libxml2` without allocation failures. -/
def XmlText.standard : XmlText where
  nodeGetContent node := some node.content

theorem XmlText.standard_documented : XmlText.standard.Documented where
  content _ := rfl

/-! ## Documents -/

/-- The functions of `libxml2` that read a document and search it. -/
structure LibxmlReader extends XmlText where
  /-- `xmlDocPtr`, without NULL -/
  Document : Type
  /-- `xmlReadMemory`, given a pointer and a number of bytes -/
  readMemory : Option (List UInt8) → Int32 → Option Document
  /-- `xmlReadIO`, given the bytes its callback delivers -/
  readIo : List UInt8 → Option Document
  /-- `xmlDocGetRootElement`: the name and the children of the root -/
  rootElement : Document → CStr × List Node
  /-- `xmlXPathEvalExpression`, with the namespaces that are registered: the nodes of
  the result, none where there is no result -/
  xpathEval : Document → List (CStr × CStr) → CStr → List Node

/-- The documented behaviour: texts are C strings, and there is no document at
NULL. -/
structure LibxmlReader.Documented (xml : LibxmlReader) : Prop where
  content_nul : ∀ node text, xml.nodeGetContent node = some text → 0 ∉ text
  readMemory_null : ∀ size, xml.readMemory none size = none

/-- The documented behaviour of the two functions that read: what counts are the
bytes, and there is no document of a negative number of them. -/
structure LibxmlReader.ReadsAlike (xml : LibxmlReader) : Prop where
  readMemory_bytes : ∀ buffer size, 0 ≤ size →
    xml.readMemory (some buffer) size = xml.readIo (buffer.take size.toInt.toNat)
  readMemory_negative : ∀ buffer size, size < 0 → xml.readMemory buffer size = none

/-! ## A small libxml2 -/

abbrev slash : UInt8 := 47

/-- The elements that an expression selects: those at a path from the root, such as
`/Error/Code`, or the root and its children with a name, such as `//cos:Ver`. -/
def selectElements (root : CStr × List Node) (selector : CStr) : List Node :=
  match selector.splitOn slash with
  | [[], [], _] =>
      (Node.element root.1 root.2 :: root.2).filter fun node =>
        node.onElement false fun name _ => bytes "//cos:" ++ name = selector
  | [] :: first :: names =>
      if first = root.1 then
        names.foldl (fun nodes name => nodes.flatMap fun node => node.children.filter fun child =>
          child.onElement false fun own _ => own = name) [.element root.1 root.2]
      else []
  | _ => []

/-- A reader that knows some documents, each with the name and the children of its root. -/
def LibxmlReader.ofDocuments (known : List (List UInt8 × CStr × List Node)) : LibxmlReader where
  nodeGetContent node := some (node.content.takeWhile (· != 0))
  Document := CStr × List Node
  readMemory buffer size :=
    if size < 0 then none
    else buffer.bind fun buffer => known.lookup (buffer.take size.toInt.toNat)
  readIo buffer := known.lookup buffer
  rootElement doc := doc
  xpathEval doc _ selector := selectElements doc selector

section Documents

variable (known : List (List UInt8 × CStr × List Node))

theorem LibxmlReader.ofDocuments_documented : (LibxmlReader.ofDocuments known).Documented where
  content_nul node text h := by
    obtain rfl := Option.some.inj h
    intro hmem
    exact absurd (List.mem_takeWhile_imp hmem) (by decide)
  readMemory_null _ := ite_self none

theorem LibxmlReader.ofDocuments_readsAlike : (LibxmlReader.ofDocuments known).ReadsAlike where
  readMemory_bytes _ _ hsize := if_neg (Int32.not_lt.mpr hsize)
  readMemory_negative _ _ hsize := if_pos hsize

end Documents

/-- The reader that knows none. -/
def LibxmlReader.blind : LibxmlReader := .ofDocuments []

theorem LibxmlReader.blind_documented : LibxmlReader.blind.Documented :=
  LibxmlReader.ofDocuments_documented []

end XmlTree
