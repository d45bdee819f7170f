import Atmos.GeneratedStructs

/-!
# Generated structs that are read back

What the generated `_bind` of a complex type makes of the element that its `_unbind`
writes, for every complex type.

* `Builtin.foldl_bind` — a member of a builtin type is read back;
* `StructType.foldl_bindChild` — so are all elements, by their names;
* `StructType.bind_unbind` — a struct is read back, with its attributes.
-/

namespace Atmos

open ByteText CivilTime FormattedText XmlDocument

/-! ## Members of builtin types -/

theorem isPlain_booleanText (value : Int32) : IsPlain (booleanText value) := by
  have hwords : ∀ s ∈ [bytes "true", bytes "false"],
      ∀ b ∈ s, (32 ≤ b ∧ b < 127) ∧ b ≠ ampersand := by decide +kernel
  apply isPlain_of_ascii
  unfold booleanText
  split
  · exact hwords _ (by simp)
  · exact hwords _ (by simp)

namespace Builtin

/-- The value of an optional member, if it is there. -/
def present : (type : Builtin) → type.Optional → Option type.Value
  | string, text => text.map some
  | int, m => m.present
  | dateTime, m => m.present
  | boolean, m => m.present

/-- An optional member that is there. -/
def filled : (type : Builtin) → type.Value → type.Optional
  | string, text => text
  | int, value => ⟨value, 1⟩
  | dateTime, value => ⟨value, 1⟩
  | boolean, value => ⟨value, 1⟩

section Reread

variable (platform : TimePlatform) (read : CStr → CStr)

/-- The value that is read for one that was written. -/
def rereadValue : (type : Builtin) → type.Value → type.Value
  | string, text => text.map read
  | int, value => value
  | dateTime, value => datetimeParse (dateTimeText platform value)
  | boolean, value => if value ≠ 0 then 1 else 0

def rereadOptional (type : Builtin) (m : type.Optional) : type.Optional :=
  (type.present m).elim type.initOptional fun value =>
    type.filled (type.rereadValue platform read value)

def rereadAttribute (required : Bool) (type : Builtin) (m : type.Optional) : type.Optional :=
  if required then type.filled (type.rereadValue platform read (type.held m))
  else type.rereadOptional platform read m

/-- Null pointers are left out of an array. -/
def reread (type : Builtin) :
    (cardinality : Cardinality) → type.Cell cardinality → type.Cell cardinality
  | .required, value => type.rereadValue platform read value
  | .optional, m => type.rereadOptional platform read m
  | .array, values => values.filterMap fun value =>
      (type.text platform value).map fun _ => type.rereadValue platform read value

end Reread

section Values

variable {platform : TimePlatform} {read : CStr → CStr} (hread : ∀ s, IsPlain s → read s = s)
  {type : Builtin} {value : type.Value} {s : CStr}

theorem optionalText_eq (m : type.Optional) :
    type.optionalText platform m = (type.present m).bind (type.text platform) := by
  cases type with
  | string => cases m <;> rfl
  | int => exact Option.map_eq_bind
  | dateTime => exact Option.map_eq_bind
  | boolean => exact Option.map_eq_bind

/-- A value that is there has a text. -/
theorem text_of_present (platform : TimePlatform) {m : type.Optional}
    (h : type.present m = some value) :
    ∃ s, type.text platform value = some s := by
  cases type with
  | string =>
      obtain ⟨s, -, rfl⟩ := Option.map_eq_some_iff.mp h
      exact ⟨s, rfl⟩
  | int => exact ⟨_, rfl⟩
  | dateTime => exact ⟨_, rfl⟩
  | boolean => exact ⟨_, rfl⟩

theorem rereadValue_of_none (h : type.text platform value = none) :
    type.rereadValue platform read value = type.initValue := by
  cases type with
  | string => exact congrArg (Option.map read) h
  | int => cases h
  | dateTime => cases h
  | boolean => cases h

include hread

/-- **A value is read back** from its text. -/
theorem bindValue_text (h : type.text platform value = some s) (old : type.Value) :
    type.bindValue old (read s) = type.rereadValue platform read value := by
  cases type with
  | string =>
      obtain rfl : value = some s := h
      rfl
  | int =>
      obtain rfl := Option.some.inj h
      have hint := (⟨old, 0⟩ : Member Int64).bindInt_int64Text value
      rw [hread _ (isPlain_int64Text value)]
      exact congrArg Member.value hint
  | dateTime =>
      obtain rfl := Option.some.inj h
      have hplain : IsPlain (dateTimeText platform value) := isPlain_strftime platform _
      rw [hread _ hplain]
      rfl
  | boolean =>
      obtain rfl := Option.some.inj h
      rw [hread _ (isPlain_booleanText value)]
      exact congrArg Member.value (Member.bindBoolean_booleanText value)

/-- The companion of a value that is read is set. -/
theorem bindOptional_text (h : type.text platform value = some s) (m : type.Optional) :
    type.bindOptional m (read s) = type.filled (type.rereadValue platform read value) := by
  rw [← bindValue_text hread h (type.held m)]
  cases type with
  | string => rfl
  | int =>
      obtain rfl := Option.some.inj h
      have hint := m.bindInt_int64Text value
      have hvalue := (⟨m.value, 0⟩ : Member Int64).bindInt_int64Text value
      rw [hread _ (isPlain_int64Text value)]
      exact hint.trans (congrArg (Member.mk · 1) (congrArg Member.value hvalue.symm))
  | dateTime => rfl
  | boolean => rfl

theorem bindArray_text (h : type.text platform value = some s) (tmp : Int64)
    (values : List type.Value) : type.bindArray tmp values (read s) =
      values ++ [type.rereadValue platform read value] := by
  cases type with
  | string =>
      obtain rfl : value = some s := h
      rfl
  | int =>
      rw [← bindValue_text hread h tmp]
      obtain rfl := Option.some.inj h
      have hset := congrArg Member.set ((⟨tmp, 0⟩ : Member Int64).bindInt_int64Text value)
      rw [hread _ (isPlain_int64Text value)]
      refine if_pos fun hresult => ?_
      rw [Member.bindInt] at hset
      dsimp only at hset
      rw [hresult] at hset
      exact absurd hset (by decide)
  | dateTime =>
      rw [← bindValue_text hread h (0 : Int64)]
      rfl
  | boolean =>
      rw [← bindValue_text hread h (0 : Int32)]
      rfl

end Values

section Elements

variable {xml : XmlWriter} (hxml : xml.Documented) {platform : TimePlatform} {name : CStr}
  {type : Builtin}

include hxml

/-- An array is read back at the end of what is there. -/
theorem foldl_bindArray {values : List type.Value} {trees : List Tree}
    (h : List.Forall₂ (Rereads xml)
      ((values.filterMap (type.text platform)).map (.value name)) trees)
    (tmp : Int64) (st : List type.Value) :
    trees.foldl (fun st child => type.bindArray tmp st child.content) st =
      st ++ type.reread platform xml.textOf .array values := by
  induction values generalizing trees st with
  | nil =>
      obtain rfl := List.forall₂_nil_left_iff.mp h
      exact (List.append_nil st).symm
  | cons value values ih =>
      rw [reread, List.filterMap_cons]
      rw [List.filterMap_cons] at h
      cases htext : type.text platform value with
      | none =>
          rw [htext] at h
          exact ih h st
      | some s =>
          rw [htext] at h
          obtain ⟨child, rest, hchild, hrest, rfl⟩ := List.forall₂_cons_left_iff.mp h
          have hread : ∀ s, IsPlain s → xml.textOf s = s := fun _ => hxml.textOf_of_isPlain
          rw [List.foldl_cons, hchild.value_spec.2, bindArray_text hread htext, ih hrest,
            List.append_assoc]
          rfl

/-- **A member is read back** from the elements that were written for it. -/
theorem foldl_bind {cardinality : Cardinality} {cell : type.Cell cardinality} {trees : List Tree}
    (h : List.Forall₂ (Rereads xml)
      ((type.texts platform cardinality cell).map (.value name)) trees) (tmp : Int64) :
    trees.foldl (fun cell child => type.bind tmp cardinality cell child.content)
      (type.init cardinality) = type.reread platform xml.textOf cardinality cell := by
  have hread : ∀ s, IsPlain s → xml.textOf s = s := fun _ => hxml.textOf_of_isPlain
  cases cardinality with
  | required =>
      cases htext : type.text platform cell with
      | none =>
          rw [texts, htext] at h
          obtain rfl := List.forall₂_nil_left_iff.mp h
          exact (rereadValue_of_none htext).symm
      | some s =>
          rw [texts, htext] at h
          obtain ⟨child, rest, hchild, hrest, rfl⟩ := List.forall₂_cons_left_iff.mp h
          obtain rfl := List.forall₂_nil_left_iff.mp hrest
          rw [List.foldl_cons, List.foldl_nil, hchild.value_spec.2]
          exact bindValue_text hread htext _
  | optional =>
      rw [reread, rereadOptional]
      cases hpresent : type.present cell with
      | none =>
          rw [texts, optionalText_eq, hpresent] at h
          obtain rfl := List.forall₂_nil_left_iff.mp h
          rfl
      | some value =>
          obtain ⟨s, htext⟩ := text_of_present platform hpresent
          rw [texts, optionalText_eq, hpresent, Option.bind_some, htext] at h
          obtain ⟨child, rest, hchild, hrest, rfl⟩ := List.forall₂_cons_left_iff.mp h
          obtain rfl := List.forall₂_nil_left_iff.mp hrest
          rw [List.foldl_cons, List.foldl_nil, hchild.value_spec.2]
          exact bindOptional_text hread htext _
  | array => exact foldl_bindArray hxml h tmp []

end Elements

/-- **An attribute is read back** from the text that was written for it. -/
theorem elim_bindOptional {platform : TimePlatform} {required : Bool} {type : Builtin}
    {m : type.Optional} :
    (type.attributeText platform required m).elim type.initOptional
        (type.bindOptional type.initOptional) =
      type.rereadAttribute platform id required m := by
  have hread : ∀ s, IsPlain s → id s = s := fun _ _ => rfl
  cases required with
  | true =>
      rw [attributeText, rereadAttribute, if_pos rfl, if_pos rfl]
      cases htext : type.text platform (type.held m) with
      | none =>
          cases type with
          | string => exact (congrArg (Option.map id) htext).symm
          | int => cases htext
          | dateTime => cases htext
          | boolean => cases htext
      | some s => exact bindOptional_text hread htext _
  | false =>
      rw [attributeText, rereadAttribute, if_neg (by decide), if_neg (by decide),
        optionalText_eq, rereadOptional]
      cases hpresent : type.present m with
      | none => rfl
      | some value =>
          obtain ⟨s, htext⟩ := text_of_present platform hpresent
          rw [Option.bind_some, htext]
          exact bindOptional_text hread htext _

end Builtin

/-! ## Members of complex types -/

namespace Cardinality

variable {σ τ : Type}

/-- A function is applied to the structs that are there. -/
def map (f : σ → τ) :
    (cardinality : Cardinality) → cardinality.Slot σ → cardinality.Slot τ
  | required, self => f self
  | optional, target => target.map f
  | array, values => values.map f

theorem foldl_bindStruct {xml : XmlWriter} {unbind : σ → Built} {reread : σ → σ} {zero : σ}
    {bind : σ → Tree → σ}
    (hbind : ∀ self child, Rereads xml (unbind self) child → bind zero child = reread self)
    {cardinality : Cardinality} {slot : cardinality.Slot σ} {trees : List Tree}
    (h : List.Forall₂ (Rereads xml) ((cardinality.structs slot).map unbind) trees) :
    trees.foldl (fun slot child => cardinality.bindStruct zero (bind · child) slot)
      (cardinality.init zero) = cardinality.map reread slot := by
  cases cardinality with
  | required =>
      obtain ⟨child, rest, hchild, hrest, rfl⟩ := List.forall₂_cons_left_iff.mp h
      obtain rfl := List.forall₂_nil_left_iff.mp hrest
      exact hbind slot child hchild
  | optional =>
      cases slot with
      | none =>
          obtain rfl := List.forall₂_nil_left_iff.mp h
          rfl
      | some self =>
          obtain ⟨child, rest, hchild, hrest, rfl⟩ := List.forall₂_cons_left_iff.mp h
          obtain rfl := List.forall₂_nil_left_iff.mp hrest
          exact congrArg some (hbind self child hchild)
  | array =>
      have hgrow : ∀ (values : List σ) (trees : List Tree) (st : List σ),
          List.Forall₂ (Rereads xml) (values.map unbind) trees →
          trees.foldl (fun st child => st ++ [bind zero child]) st = st ++ values.map reread := by
        intro values
        induction values with
        | nil =>
            intro trees st h
            obtain rfl := List.forall₂_nil_left_iff.mp h
            exact (List.append_nil st).symm
        | cons self values ih =>
            intro trees st h
            obtain ⟨child, rest, hchild, hrest, rfl⟩ := List.forall₂_cons_left_iff.mp h
            rw [List.foldl_cons, ih rest _ hrest, hbind self child hchild, List.append_assoc]
            rfl
      exact hgrow slot trees [] h

end Cardinality

/-! ## Structs -/

namespace StructType

/-- The struct that is read for one that was written. -/
def reread (xml : XmlWriter) (platform : TimePlatform) :
    (type : StructType) → type.Struct → type.Struct
  | nil, self => self
  | element _ cardinality type rest, (cell, others) =>
      (type.reread platform xml.textOf cardinality cell, rest.reread xml platform others)
  | complex _ cardinality type rest, (slot, others) =>
      (cardinality.map (type.reread xml platform) slot, rest.reread xml platform others)
  | prop _ required type rest, (m, others) =>
      (type.rereadAttribute platform id required m, rest.reread xml platform others)

/-- A struct without its attributes. -/
def clearAttributes : (type : StructType) → type.Struct → type.Struct
  | nil, self => self
  | element _ _ _ rest, (cell, others) => (cell, rest.clearAttributes others)
  | complex _ _ _ rest, (slot, others) => (slot, rest.clearAttributes others)
  | prop _ _ type rest, (_, others) => (type.initOptional, rest.clearAttributes others)

variable {xml : XmlWriter} {platform : TimePlatform}

theorem lookup_unbindAttributes_of_notMem {type : StructType} {key : CStr}
    (h : key ∉ type.attributeNames) (self : type.Struct) :
    (type.unbindAttributes platform self).lookup key = none := by
  induction type with
  | nil => rfl
  | element name cardinality type rest ih => exact ih h self.2
  | complex name cardinality type rest _ ih => exact ih h self.2
  | prop name required type rest ih =>
      obtain ⟨hne, hrest⟩ := not_or.mp (mt List.mem_cons.mpr h)
      rw [unbindAttributes, List.lookup_append, lookup_unbindString_of_ne hne, Option.none_or]
      exact ih hrest self.2

/-- **The attributes are read back.** -/
theorem bindAttributes_clearAttributes {type : StructType} (hdistinct : type.Distinct)
    {self : type.Struct} {node : Tree}
    (h : ∀ key ∈ type.attributeNames,
      node.getProp key = (type.unbindAttributes platform self).lookup key) :
    type.bindAttributes (type.clearAttributes (type.reread xml platform self)) node =
      type.reread xml platform self := by
  induction type with
  | nil => rfl
  | element name cardinality type rest ih =>
      exact congrArg _ (ih hdistinct.2 h)
  | complex name cardinality type rest _ ih =>
      exact congrArg _ (ih hdistinct.2.2 h)
  | prop name required type rest ih =>
      obtain ⟨m, others⟩ := self
      obtain ⟨hname, hrest⟩ := hdistinct
      have hfirst : node.getProp name = type.attributeText platform required m := by
        rw [h name List.mem_cons_self, unbindAttributes, List.lookup_append, lookup_unbindString,
          lookup_unbindAttributes_of_notMem hname, Option.or_none]
      have hothers : ∀ key ∈ rest.attributeNames,
          node.getProp key = (rest.unbindAttributes platform others).lookup key := by
        intro key hkey
        have hne : key ≠ name := fun heq => hname (heq ▸ hkey)
        rw [h key (List.mem_cons_of_mem _ hkey), unbindAttributes, List.lookup_append,
          lookup_unbindString_of_ne hne, Option.none_or]
      rw [reread, clearAttributes, bindAttributes, hfirst, Builtin.elim_bindOptional,
        ih hrest hothers]

theorem name_mem_elementNames {type : StructType} (self : type.Struct) :
    ∀ built ∈ type.unbindElements platform self, built.name ∈ type.elementNames := by
  induction type with
  | nil => exact fun _ h => nomatch h
  | element name cardinality type rest ih =>
      intro built hbuilt
      rcases List.mem_append.mp hbuilt with hfirst | hothers
      · obtain ⟨s, -, rfl⟩ := List.mem_map.mp hfirst
        exact List.mem_cons_self
      · exact List.mem_cons_of_mem _ (ih self.2 built hothers)
  | complex name cardinality type rest _ ih =>
      intro built hbuilt
      rcases List.mem_append.mp hbuilt with hfirst | hothers
      · obtain ⟨s, -, rfl⟩ := List.mem_map.mp hfirst
        exact List.mem_cons_self
      · exact List.mem_cons_of_mem _ (ih self.2 built hothers)
  | prop name required type rest ih => exact ih self.2

/-- Two sections of a document, of the first member and of the others, are read one
by one. -/
theorem foldl_sections {α β : Type} {step : α × β → Tree → α × β}
    {first : α → Tree → α} {others : β → Tree → β} {name : CStr}
    (hfirst : ∀ a b child, child.name = name → step (a, b) child = (first a child, b))
    (hothers : ∀ a b child, child.name ≠ name → step (a, b) child = (a, others b child))
    {firstTrees otherTrees : List Tree} (hnames : ∀ child ∈ firstTrees, child.name = name)
    (hne : ∀ child ∈ otherTrees, child.name ≠ name) (a : α) (b : β) :
    (firstTrees ++ otherTrees).foldl step (a, b) =
      (firstTrees.foldl first a, otherTrees.foldl others b) := by
  induction firstTrees generalizing a with
  | nil =>
      induction otherTrees generalizing b with
      | nil => rfl
      | cons child trees ih =>
          obtain ⟨hchild, htrees⟩ := List.forall_mem_cons.mp hne
          rw [List.nil_append, List.foldl_cons, hothers a b child hchild]
          exact ih htrees (others b child)
  | cons child trees ih =>
      obtain ⟨hchild, htrees⟩ := List.forall_mem_cons.mp hnames
      rw [List.cons_append, List.foldl_cons, hfirst a b child hchild]
      exact ih htrees (first a child)

/-- Two sections of a document that was read back. -/
theorem foldl_bindChild_sections {σ : Type} {rest : StructType} {name : CStr} {tmp : Int64}
    {step : σ × rest.Struct → Tree → σ × rest.Struct} {first : σ → Tree → σ}
    (hfirst : ∀ a b child, child.name = name → step (a, b) child = (first a child, b))
    (hothers : ∀ a b child, child.name ≠ name →
      step (a, b) child = (a, rest.bindChild tmp b child))
    (hdistinct : name ∉ rest.elementNames) {built : List Built}
    (hbuilt : ∀ b ∈ built, b.name = name) {others : rest.Struct} {trees : List Tree}
    (h : List.Forall₂ (Rereads xml) (built ++ rest.unbindElements platform others) trees)
    (a : σ) (b : rest.Struct) :
    ∃ firstTrees otherTrees,
      trees.foldl step (a, b) =
        (firstTrees.foldl first a, otherTrees.foldl (rest.bindChild tmp) b) ∧
      List.Forall₂ (Rereads xml) built firstTrees ∧
      List.Forall₂ (Rereads xml) (rest.unbindElements platform others) otherTrees := by
  obtain ⟨firstTrees, otherTrees, rfl, hfirstTrees, hotherTrees⟩ := forall₂_append_left h
  refine ⟨firstTrees, otherTrees, ?_, hfirstTrees, hotherTrees⟩
  apply foldl_sections hfirst hothers
  · intro child hchild
    obtain ⟨b, hb, hname⟩ := exists_name_of_forall₂ hfirstTrees hchild
    rw [hname, hbuilt b hb]
  · intro child hchild
    obtain ⟨b, hb, hname⟩ := exists_name_of_forall₂ hotherTrees hchild
    rw [hname]
    exact fun heq => hdistinct (heq ▸ name_mem_elementNames others b hb)

/-- **The elements are read back**, each by the member of its name. -/
theorem foldl_bindChild (hxml : xml.Documented) {type : StructType} (hdistinct : type.Distinct)
    (tmp : Int64) {self : type.Struct} {trees : List Tree}
    (h : List.Forall₂ (Rereads xml) (type.unbindElements platform self) trees) :
    trees.foldl (type.bindChild tmp) type.init =
      type.clearAttributes (type.reread xml platform self) := by
  induction type generalizing trees with
  | nil =>
      obtain rfl := List.forall₂_nil_left_iff.mp h
      rfl
  | element name cardinality type rest ih =>
      obtain ⟨cell, others⟩ := self
      obtain ⟨hname, hrest⟩ := hdistinct
      have hbuilt : ∀ b ∈ (type.texts platform cardinality cell).map (Built.value name),
          b.name = name := by
        intro b hb
        obtain ⟨s, -, rfl⟩ := List.mem_map.mp hb
        rfl
      have hmatch : ∀ cell others child, child.name = name →
          (element name cardinality type rest).bindChild tmp (cell, others) child =
            (type.bind tmp cardinality cell child.content, others) :=
        fun _ _ _ hchild => if_pos hchild
      obtain ⟨firstTrees, otherTrees, hfold, hfirst, hothers⟩ := foldl_bindChild_sections hmatch
        (fun _ _ _ hchild => if_neg hchild) hname hbuilt h (type.init cardinality) rest.init
      rw [init, hfold, Builtin.foldl_bind hxml hfirst, ih hrest hothers]
      rfl
  | complex name cardinality type rest ihtype ih =>
      obtain ⟨slot, others⟩ := self
      obtain ⟨hname, htype, hrest⟩ := hdistinct
      have hbuilt : ∀ b ∈ (cardinality.structs slot).map (type.unbind platform name),
          b.name = name := by
        intro b hb
        obtain ⟨s, -, rfl⟩ := List.mem_map.mp hb
        rfl
      have hmatch : ∀ slot others child, child.name = name →
          (complex name cardinality type rest).bindChild tmp (slot, others) child =
            (cardinality.bindStruct type.init (type.bind tmp · child) slot, others) :=
        fun _ _ _ hchild => if_pos hchild
      obtain ⟨firstTrees, otherTrees, hfold, hfirst, hothers⟩ := foldl_bindChild_sections hmatch
        (fun _ _ _ hchild => if_neg hchild) hname hbuilt h (cardinality.init type.init) rest.init
      -- the children of a child are read by the type of the member
      have hbind : ∀ self child, Rereads xml (type.unbind platform name self) child →
          type.bind tmp type.init child = type.reread xml platform self := by
        intro self child hchild
        obtain ⟨-, hprops, hchildren⟩ := hchild.node_spec
        rw [bind, bindChildren_eq, ihtype htype hchildren]
        exact bindAttributes_clearAttributes htype fun key _ => hprops key
      rw [init, hfold, Cardinality.foldl_bindStruct hbind hfirst, ih hrest hothers]
      rfl
  | prop name required type rest ih =>
      obtain ⟨m, others⟩ := self
      have hskip : ∀ st : rest.Struct,
          trees.foldl ((prop name required type rest).bindChild tmp) (type.initOptional, st) =
            (type.initOptional, trees.foldl (rest.bindChild tmp) st) := by
        clear h
        intro st
        induction trees generalizing st with
        | nil => rfl
        | cons child trees ihtrees => exact ihtrees (rest.bindChild tmp st child)
      rw [init, hskip, ih hdistinct.2 h]
      rfl

/-- **A generated struct is read back** from the element that was written for it. -/
theorem bind_unbind (hxml : xml.Documented) {type : StructType} (hdistinct : type.Distinct)
    (tmp : Int64) {name : CStr} {self : type.Struct} {node : Tree}
    (h : Rereads xml (type.unbind platform name self) node) :
    type.bind tmp type.init node = type.reread xml platform self := by
  obtain ⟨-, hprops, hchildren⟩ := h.node_spec
  rw [bind, bindChildren_eq, foldl_bindChild hxml hdistinct tmp hchildren]
  exact bindAttributes_clearAttributes hdistinct fun key _ => hprops key

end StructType

end Atmos
