import Mathlib.Data.List.Forall2
import Atmos.ByteText

/-!
# XML documents

Documents that a program builds, writes and reads again through `libxml2`.

An element is built with its children and attributes, or with a content. The
content is not stored as it is: `xmlNodeSetContent` takes it for XML text, in
which an ampersand begins a reference. Attributes are stored as they are.

* `Tree` — a document that was read;
* `Rereads` — a document that was read is the one that was built, up to the
  white space between elements.
-/

namespace XmlDocument

open ByteText

/-! ## Documents that are read -/

/-- A node of a document. -/
inductive Tree where
  | element (name : CStr) (attributes : List (CStr × CStr)) (children : List Tree)
  | text (content : CStr)
  /-- a reference to an entity, with the text the entity stands for -/
  | reference (content : CStr)
  | other

namespace Tree

def isElement : Tree → Bool
  | element .. => true
  | _ => false

/-- The name of an element. -/
def name : Tree → CStr
  | element name _ _ => name
  | _ => []

def children : Tree → List Tree
  | element _ _ children => children
  | _ => []

/-- `xmlGetProp`: the value of an attribute. -/
def getProp : Tree → CStr → Option CStr
  | element _ attributes _, name => attributes.lookup name
  | _, _ => none

mutual

/-- `xmlNodeGetContent`: the text of a node and of everything inside it. -/
def content : Tree → CStr
  | element _ _ children => contents children
  | text content => content
  | reference content => content
  | other => []

/-- The text of some nodes. -/
def contents : List Tree → CStr
  | [] => []
  | child :: children => child.content ++ contents children

end

/-- The children that are elements. -/
def elements (node : Tree) : List Tree := node.children.filter isElement

end Tree

/-! ## Documents that are built -/

/-- An element as a program builds it. -/
inductive Built where
  /-- `xmlNewNode`, then `xmlNodeSetContent` -/
  | value (name content : CStr)
  /-- `xmlNewNode`, then `xmlAddChild` and `xmlNewProp` -/
  | node (name : CStr) (attributes : List (CStr × CStr)) (children : List Built)

/-- The name of an element that is built. -/
def Built.name : Built → CStr
  | value name _ => name
  | node name _ _ => name

/-- The byte that begins a reference. -/
def ampersand : UInt8 := 38

def isNameStart (b : UInt8) : Bool := 65 ≤ b && b ≤ 90 || 97 ≤ b && b ≤ 122 || b == 95

def isNameChar (b : UInt8) : Bool := isNameStart b || isDigit b || b == 45 || b == 46

/-- The names of elements and attributes in ASCII. An attribute `xmlns` would be read as a
namespace. -/
def IsName (s : CStr) : Prop :=
  (s.head?.any isNameStart && s.all isNameChar && s != bytes "xmlns") = true

instance (s : CStr) : Decidable (IsName s) := inferInstanceAs (Decidable (_ = true))

/-- The characters of XML 1.0. -/
def IsXmlChar (c : Char) : Prop :=
  c = '\t' ∨ c = '\n' ∨ c = '\r' ∨ ' ' ≤ c ∧ c ≠ '\uFFFE' ∧ c ≠ '\uFFFF'

/-- Text in UTF-8 of characters that XML has. -/
def IsText (s : CStr) : Prop :=
  ∃ cs : List Char, s = cs.flatMap String.utf8EncodeChar ∧ ∀ c ∈ cs, IsXmlChar c

theorem utf8EncodeChar_ascii {b : UInt8} (h : b < 127) :
    String.utf8EncodeChar (Char.ofUInt8 b) = [b] := by
  have hlt : b.toNat < 127 := h
  have hval : (Char.ofUInt8 b).val = b.toUInt32 := rfl
  have hle : (Char.ofUInt8 b).val.toNat ≤ 127 := hlt.le
  have hsize : (Char.ofUInt8 b).utf8Size = 1 := if_pos hle
  rw [String.utf8EncodeChar_eq_singleton hsize, hval, UInt8.toUInt8_toUInt32]

theorem isXmlChar_ascii {b : UInt8} (h : 32 ≤ b ∧ b < 127) : IsXmlChar (Char.ofUInt8 b) := by
  have hle : 32 ≤ b.toNat := h.1
  have hlt : b.toNat < 127 := h.2
  have hval : (Char.ofUInt8 b).toNat = b.toNat := rfl
  have hbig : '\uFFFE'.toNat = 65534 ∧ '\uFFFF'.toNat = 65535 := ⟨rfl, rfl⟩
  refine .inr (.inr (.inr ⟨hle, ?_, ?_⟩))
  all_goals
    intro hc
    rw [hc] at hval
    omega

/-- Printable ASCII is text. -/
theorem isText_of_ascii {s : CStr} (h : ∀ b ∈ s, 32 ≤ b ∧ b < 127) : IsText s := by
  refine ⟨s.map Char.ofUInt8, ?_, ?_⟩
  · induction s with
    | nil => rfl
    | cons b s ih =>
        rw [List.map_cons, List.flatMap_cons, utf8EncodeChar_ascii (h b List.mem_cons_self).2,
          ← ih fun c hc => h c (List.mem_cons_of_mem _ hc)]
        rfl
  · intro c hc
    obtain ⟨b, hb, rfl⟩ := List.mem_map.mp hc
    exact isXmlChar_ascii (h b hb)

/-- A text without references. -/
def IsPlain (s : CStr) : Prop := IsText s ∧ ampersand ∉ s

theorem isPlain_of_ascii {s : CStr} (h : ∀ b ∈ s, (32 ≤ b ∧ b < 127) ∧ b ≠ ampersand) :
    IsPlain s :=
  ⟨isText_of_ascii fun b hb => (h b hb).1, fun hmem => (h _ hmem).2 rfl⟩

/-- A document that can be built and read: its names are names, its attributes
are texts that occur once in an element, and `ok` holds of its contents. -/
inductive Built.Valid (ok : CStr → Prop) : Built → Prop where
  | value {name content : CStr} : IsName name → ok content → Valid ok (.value name content)
  | node {name : CStr} {attributes : List (CStr × CStr)} {children : List Built} :
      IsName name → (∀ a ∈ attributes, IsName a.1 ∧ IsText a.2) →
      (attributes.map Prod.fst).Nodup → (∀ child ∈ children, Valid ok child) →
      Valid ok (.node name attributes children)

/-! ## libxml2 -/

/-- The functions of `libxml2` that write a document and read it again. -/
structure XmlWriter where
  /-- what stands in an element for the content given to `xmlNodeSetContent`, when the
  document is read again; none where it cannot be read -/
  nodeSetContent : CStr → Option CStr
  /-- `xmlDocDumpFormatMemoryEnc`, in UTF-8 and with indented elements; none where no
  document is written -/
  dump : Built → Option CStr
  /-- `xmlReadMemory` and `xmlDocGetRootElement` -/
  readMemory : CStr → Int32 → Option Tree

/-- The text that is read for a content, or none. -/
def XmlWriter.textOf (xml : XmlWriter) (s : CStr) : CStr := (xml.nodeSetContent s).getD []

/-- **A document that was read is the one that was built.** White space may
stand between elements, and contents are taken for XML text. -/
inductive Rereads (xml : XmlWriter) : Built → Tree → Prop where
  | value {name content text : CStr} {children : List Tree} :
      xml.nodeSetContent content = some text →
      Tree.contents children = text → Rereads xml (.value name content) (.element name [] children)
  | node {name : CStr} {attributes : List (CStr × CStr)} {built : List Built}
      {children : List Tree} :
      List.Forall₂ (Rereads xml) built (children.filter Tree.isElement) →
      Rereads xml (.node name attributes built) (.element name attributes children)

namespace Rereads

variable {xml : XmlWriter}

theorem value_spec {name content : CStr} {tree : Tree}
    (h : Rereads xml (.value name content) tree) :
    tree.name = name ∧ tree.content = xml.textOf content := by
  cases h with
  | value hset hcontent => exact ⟨rfl, by rw [XmlWriter.textOf, hset, Tree.content, hcontent]; rfl⟩

theorem node_spec {name : CStr} {attributes : List (CStr × CStr)} {built : List Built}
    {tree : Tree} (h : Rereads xml (.node name attributes built) tree) :
    tree.name = name ∧ (∀ key, tree.getProp key = attributes.lookup key) ∧
      List.Forall₂ (Rereads xml) built tree.elements := by
  cases h with
  | node hchildren => exact ⟨rfl, fun _ => rfl, hchildren⟩

theorem name_eq {built : Built} {tree : Tree} (h : Rereads xml built tree) :
    tree.name = built.name := by
  cases h with
  | value _ _ => rfl
  | node _ => rfl

end Rereads

/-- Every element that was read is one that was built. -/
theorem exists_name_of_forall₂ {xml : XmlWriter} {built : List Built} {trees : List Tree}
    (h : List.Forall₂ (Rereads xml) built trees) {child : Tree} (hchild : child ∈ trees) :
    ∃ b ∈ built, child.name = b.name := by
  induction h with
  | nil => cases hchild
  | @cons b tree built trees hfirst _ ih =>
      rcases List.mem_cons.mp hchild with rfl | hmem
      · exact ⟨b, List.mem_cons_self, hfirst.name_eq⟩
      · obtain ⟨other, hother, hname⟩ := ih hmem
        exact ⟨other, List.mem_cons_of_mem _ hother, hname⟩

/-- What was read for two lists of elements, one after the other. -/
theorem forall₂_append_left {α β : Type*} {R : α → β → Prop} {as as' : List α} {bs : List β}
    (h : List.Forall₂ R (as ++ as') bs) :
    ∃ cs cs', bs = cs ++ cs' ∧ List.Forall₂ R as cs ∧ List.Forall₂ R as' cs' := by
  induction as generalizing bs with
  | nil => exact ⟨[], bs, rfl, .nil, h⟩
  | cons a as ih =>
      cases h with
      | cons hab hrest =>
          obtain ⟨cs, cs', rfl, hcs, hcs'⟩ := ih hrest
          exact ⟨_ :: cs, cs', rfl, .cons hab hcs, hcs'⟩

/-- The documented behaviour. An ampersand and what follows it are replaced by
less text, as every reference is longer than the character it stands for, or
make a document that cannot be read. -/
structure XmlWriter.Documented (xml : XmlWriter) : Prop where
  content_plain : ∀ s, IsPlain s → xml.nodeSetContent s = some s
  content_reference : ∀ s text, ampersand ∈ s → xml.nodeSetContent s = some text →
    text.length < s.length
  reread : ∀ built text tree, built.Valid IsText → xml.dump built = some text →
    xml.readMemory text (.ofNat text.length) = some tree → Rereads xml built tree
  readable : ∀ built text, built.Valid IsPlain → xml.dump built = some text →
    ∃ tree, xml.readMemory text (.ofNat text.length) = some tree

theorem XmlWriter.Documented.textOf_of_isPlain {xml : XmlWriter} (hxml : xml.Documented) {s : CStr}
    (hs : IsPlain s) : xml.textOf s = s := by
  rw [XmlWriter.textOf, hxml.content_plain s hs, Option.getD_some]

/-- **A content is read back exactly where it has no ampersand.** -/
theorem XmlWriter.Documented.textOf_eq_iff {xml : XmlWriter} (hxml : xml.Documented) {s : CStr}
    (hs : IsText s) : xml.textOf s = s ↔ ampersand ∉ s := by
  constructor
  · intro htext hmem
    rw [XmlWriter.textOf] at htext
    cases hset : xml.nodeSetContent s with
    | none =>
        rw [hset] at htext
        rw [← htext] at hmem
        cases hmem
    | some text =>
        have hlt := hxml.content_reference s text hmem hset
        rw [hset, Option.getD_some] at htext
        rw [htext] at hlt
        exact Nat.lt_irrefl _ hlt
  · exact fun hmem => hxml.textOf_of_isPlain ⟨hs, hmem⟩

/-! ## A small libxml2 -/

/-- The content that is read where `&amp;` is the only reference there is. -/
def expandAmp : CStr → Option CStr
  | [] => some []
  | 38 :: 97 :: 109 :: 112 :: 59 :: rest => (expandAmp rest).map (ampersand :: ·)
  | b :: rest => if b = ampersand then none else (expandAmp rest).map (b :: ·)

theorem expandAmp_of_notMem {s : CStr} (h : ampersand ∉ s) : expandAmp s = some s := by
  induction s with
  | nil => rfl
  | cons b s ih =>
      obtain ⟨hb, hs⟩ := not_or.mp (mt List.mem_cons.mpr h)
      rw [expandAmp, if_neg (Ne.symm hb), ih hs]
      · rfl
      · rintro rest rfl
        exact absurd rfl hb

theorem length_expandAmp {s text : CStr} (h : expandAmp s = some text) :
    text.length ≤ s.length ∧ (ampersand ∈ s → text.length < s.length) := by
  fun_induction expandAmp s generalizing text with
  | case1 =>
      cases h
      exact ⟨le_rfl, fun hmem => nomatch hmem⟩
  | case2 rest ih =>
      obtain ⟨expanded, hexpanded, rfl⟩ := Option.map_eq_some_iff.mp h
      have hle := (ih hexpanded).1
      simp only [List.length_cons]
      omega
  | case3 rest hne => cases h
  | case4 b rest hne hb ih =>
      obtain ⟨expanded, hexpanded, rfl⟩ := Option.map_eq_some_iff.mp h
      obtain ⟨hle, hlt⟩ := ih hexpanded
      refine ⟨Nat.succ_le_succ hle, fun hmem => Nat.succ_lt_succ (hlt ?_)⟩
      exact (List.mem_cons.mp hmem).resolve_left (Ne.symm hb)

open Classical in
/-- A `libxml2` that writes one document and can read it again. -/
noncomputable def XmlWriter.ofDocument (built : Built) (text : CStr) (tree : Tree) : XmlWriter where
  nodeSetContent := expandAmp
  dump other := if other = built then some text else none
  readMemory other _ := if other = text then some tree else none

theorem XmlWriter.dump_ofDocument (built : Built) (text : CStr) (tree : Tree) :
    (ofDocument built text tree).dump built = some text := if_pos rfl

theorem XmlWriter.readMemory_ofDocument (built : Built) (text : CStr) (tree : Tree) (size : Int32) :
    (ofDocument built text tree).readMemory text size = some tree := if_pos rfl

theorem XmlWriter.ofDocument_documented {built : Built} {text : CStr} {tree : Tree}
    (h : Rereads (.ofDocument built text tree) built tree) :
    (XmlWriter.ofDocument built text tree).Documented where
  content_plain _ hs := expandAmp_of_notMem hs.2
  content_reference _ _ hmem hset := (length_expandAmp hset).2 hmem
  reread other written node _ hdump hread := by
    obtain ⟨rfl, -⟩ := Option.ite_none_right_eq_some.mp hdump
    obtain ⟨-, hnode⟩ := Option.ite_none_right_eq_some.mp hread
    exact Option.some.inj hnode ▸ h
  readable other written _ hdump := by
    obtain ⟨-, hwritten⟩ := Option.ite_none_right_eq_some.mp hdump
    exact ⟨tree, if_pos (Option.some.inj hwritten).symm⟩

end XmlDocument
