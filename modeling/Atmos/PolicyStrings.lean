import Mathlib.Data.List.ReduceOption
import Atmos.PolicyRoundTrip

/-!
# Strings of a policy

The strings of a policy take two ways into its document. Attributes are stored
as they are, while the content of an element is taken for XML text, so that an
ampersand in it begins a reference.

* `policy_strings_kept_iff` — the strings of a policy are read back exactly where
  no content of an element has an ampersand; names may have any.
-/

namespace Atmos

open ByteText XmlDocument

variable {xml : XmlWriter}

/-- The strings of a policy, each in its place; null pointers are none. -/
@[ext] structure PolicyTexts where
  rules : Option (SourceRule → List CStr)
  fields : List ((FormFieldTest → List CStr) × Option CStr)

/-- The strings of some arrays. -/
def StringArrays.texts {ι : Type} (arrays : StringArrays ι) (i : ι) : List CStr :=
  (arrays i).reduceOption

def AtmosPolicyType.texts (self : AtmosPolicyType) : PolicyTexts where
  rules := self.source.map fun source => source.rules.texts
  fields := self.formField.map fun field => (field.tests.texts, field.name)

theorem reduceOption_rereadStrings (strings : List (Option CStr)) :
    (rereadStrings xml strings).reduceOption = strings.reduceOption.map xml.textOf := by
  induction strings with
  | nil => rfl
  | cons s strings ih =>
      cases s with
      | none => exact ih
      | some value => exact congrArg (xml.textOf value :: ·) ih

/-- Arrays are read back exactly where each of their strings is. -/
theorem StringArrays.texts_reread_iff {ι : Type} (arrays : StringArrays ι) :
    (arrays.reread xml).texts = arrays.texts ↔ ∀ i s, some s ∈ arrays i → xml.textOf s = s := by
  rw [funext_iff]
  refine forall_congr' fun i => ?_
  have hmap : (arrays i).reduceOption.map xml.textOf = (arrays i).reduceOption ↔
      ∀ s ∈ (arrays i).reduceOption, xml.textOf s = s := by
    conv_lhs => rhs; rw [← List.map_id (arrays i).reduceOption]
    exact List.map_inj_left
  rw [texts, texts, reread, reduceOption_rereadStrings, hmap]
  exact forall_congr' fun s => by rw [List.reduceOption_mem_iff]

/-- The strings of a policy are read back exactly where each content of an
element is. -/
theorem AtmosPolicyType.texts_reread_iff (platform : TimePlatform) (self : AtmosPolicyType) :
    (self.reread xml platform).texts = self.texts ↔ ∀ s, self.HasText s → xml.textOf s = s := by
  have hrules : (self.reread xml platform).texts.rules = self.texts.rules ↔
      ∀ source ∈ self.source, ∀ rule s, some s ∈ source.rules rule → xml.textOf s = s := by
    rw [texts, texts, reread]
    cases self.source with
    | none => simp
    | some source =>
        simp only [Option.map_some, Option.some.injEq, Option.mem_def, forall_eq']
        exact source.rules.texts_reread_iff
  have hfields : (self.reread xml platform).texts.fields = self.texts.fields ↔
      ∀ field ∈ self.formField, ∀ test s, some s ∈ field.tests test → xml.textOf s = s := by
    rw [texts, texts, reread, List.map_map, List.map_inj_left]
    refine forall₂_congr fun field _ => ?_
    rw [← field.tests.texts_reread_iff]
    exact ⟨fun h => congrArg Prod.fst h, fun h => Prod.ext h rfl⟩
  rw [PolicyTexts.ext_iff, hrules, hfields]
  constructor
  · rintro ⟨hsource, hfield⟩ s (⟨source, hmem, rule, hs⟩ | ⟨field, hmem, test, hs⟩)
    · exact hsource source hmem rule s hs
    · exact hfield field hmem test s hs
  · intro h
    exact ⟨fun source hmem rule s hs => h s (.inl ⟨source, hmem, rule, hs⟩),
      fun field hmem test s hs => h s (.inr ⟨field, hmem, test, hs⟩)⟩

/-- **The strings of a policy are read back exactly** where no content of an
element has an ampersand. -/
theorem policy_strings_kept_iff (hxml : xml.Documented) (platform : TimePlatform)
    {self : AtmosPolicyType} {text : CStr} (htexts : ∀ s, self.HasText s → IsText s)
    (hnames : ∀ s, self.HasName s → IsText s) (hmarshal : self.marshal xml platform = some text) :
    (AtmosPolicyType.unmarshal xml text).map AtmosPolicyType.texts = some self.texts ↔
      ∀ s, self.HasText s → ampersand ∉ s := by
  have hcontent : (∀ s, self.HasText s → xml.textOf s = s) ↔
      ∀ s, self.HasText s → ampersand ∉ s :=
    forall₂_congr fun s hs => hxml.textOf_eq_iff (htexts s hs)
  rw [← hcontent, ← self.texts_reread_iff platform]
  constructor
  · intro hkept
    obtain ⟨result, hresult, htext⟩ := Option.map_eq_some_iff.mp hkept
    rw [← AtmosPolicyType.eq_reread_of_unmarshal hxml htexts hnames hmarshal hresult]
    exact htext
  · intro hkept
    have hplain : ∀ s, self.HasText s → IsPlain s := fun s hs =>
      ⟨htexts s hs, hcontent.mp ((self.texts_reread_iff platform).mp hkept) s hs⟩
    rw [AtmosPolicyType.unmarshal_of_plain hxml hplain hnames hmarshal, Option.map_some, hkept]

theorem policy_strings_kept_test :
    (AtmosPolicyType.unmarshal testLibxml testDocument).map AtmosPolicyType.texts =
        some testPolicy.texts ↔
      ∀ s, testPolicy.HasText s → ampersand ∉ s :=
  policy_strings_kept_iff (XmlWriter.ofDocument_documented testTree_rereads) testPlatform
    (fun s hs => (testPolicy_wellFormed.texts s hs).1) testPolicy_wellFormed.names
    (XmlWriter.dump_ofDocument _ _ _)

/-! ### A string that looks like a reference -/

def ampersandField : AtmosFormFieldType where
  tests
    | .«matches» => [some (bytes "a&amp;b")]
    | _ => []
  name := some (bytes "x")
  optional := .init

def ampersandPolicy : AtmosPolicyType := { AtmosPolicyType.init with formField := [ampersandField] }

def ampersandDocument : CStr := bytes
  "<?xml version=\"1.0\" encoding=\"UTF-8\"?>
<policy>
  <form-field name=\"x\">
    <matches>a&amp;b</matches>
  </form-field>
</policy>
"

def ampersandTree : Tree :=
  .element (bytes "policy") []
    [.text (bytes "\n  "),
      .element (bytes "form-field") [(bytes "name", bytes "x")]
        [.text (bytes "\n    "),
          .element (bytes "matches") [] [.text (bytes "a&b")],
          .text (bytes "\n  ")],
      .text (bytes "\n")]

noncomputable def ampersandLibxml : XmlWriter :=
  .ofDocument (ampersandPolicy.unbind testPlatform (bytes "policy")) ampersandDocument
    ampersandTree

theorem ampersandTree_rereads : Rereads ampersandLibxml
    (ampersandPolicy.unbind testPlatform (bytes "policy")) ampersandTree := by
  have hcontent : expandAmp (bytes "a&amp;b") = some (bytes "a&b") := by decide +kernel
  exact .node (.cons (.node (.cons (.value hcontent (List.append_nil (bytes "a&b"))) .nil)) .nil)

/-- A condition that is written for one text is read back for another. -/
theorem reference_rewritten :
    ampersandLibxml.Documented ∧ (∀ s, ampersandPolicy.HasText s → IsText s) ∧
      (∀ s, ampersandPolicy.HasName s → IsText s) ∧
      ampersandPolicy.marshal ampersandLibxml testPlatform = some ampersandDocument ∧
      ∃ result, AtmosPolicyType.unmarshal ampersandLibxml ampersandDocument = some result ∧
        result.formField.map (fun field => field.tests .«matches») = [[some (bytes "a&b")]] ∧
        result.texts ≠ ampersandPolicy.texts := by
  have hascii : ∀ s ∈ [bytes "a&amp;b", bytes "x"], ∀ b ∈ s, 32 ≤ b ∧ b < 127 := by
    decide +kernel
  refine ⟨XmlWriter.ofDocument_documented ampersandTree_rereads, ?_, ?_,
    XmlWriter.dump_ofDocument _ _ _, ?_⟩
  · rintro s (⟨source, ⟨⟩, -⟩ | ⟨field, hfield, test, hs⟩)
    rw [List.mem_singleton.mp hfield] at hs
    cases test with
    | «matches» =>
        refine isText_of_ascii (hascii s (List.mem_pair.mpr (.inl ?_)))
        exact Option.some.inj (List.mem_singleton.mp hs)
    | _ => cases hs
  · rintro s ⟨field, hfield, hs⟩
    rw [List.mem_singleton.mp hfield] at hs
    exact isText_of_ascii (hascii s (List.mem_pair.mpr (.inr (Option.some.inj hs).symm)))
  · refine ⟨AtmosPolicyType.init.bind ampersandTree, ?_, by decide +kernel, ?_⟩
    · rw [AtmosPolicyType.unmarshal, ampersandLibxml, XmlWriter.readMemory_ofDocument,
        Option.map_some]
    · intro htexts
      have htests := congrArg (fun t => t.fields.map fun field => field.1 .«matches») htexts
      exact absurd htests (by decide +kernel)

end Atmos
