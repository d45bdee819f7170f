import Atmos.StructRoundTrip

/-!
# Documents of generated structs

The generated `_marshal` and `_unmarshal`, for every complex type whose elements and
attributes have names of their own.

* `StructType.unbind_valid` — which structs can be written;
* `StructType.eq_reread_of_unmarshal` — what is read for a struct, whatever its strings;
* `StructType.unmarshal_of_wellFormed` — a well-formed struct is read back as it is.
-/

namespace Atmos

open ByteText CivilTime XmlDocument

/-! ## Documents that can be written -/

namespace Builtin

/-- The strings of a member. -/
def strings :
    (type : Builtin) → (cardinality : Cardinality) → type.Cell cardinality → List CStr
  | string, .required, value => value.toList
  | string, .optional, value => value.toList
  | string, .array, values => values.filterMap id
  | int, _, _ => []
  | dateTime, _, _ => []
  | boolean, _, _ => []

variable {platform : TimePlatform} {type : Builtin}

theorem text_eq_some {value : type.Value} {s : CStr} (h : type.text platform value = some s) :
    s ∈ type.strings .required value ∨ IsPlain s := by
  cases type with
  | string => exact .inl (Option.mem_toList.mpr h)
  | int =>
      obtain rfl := Option.some.inj h
      exact .inr (isPlain_int64Text value)
  | dateTime =>
      obtain rfl := Option.some.inj h
      exact .inr (isPlain_strftime platform _)
  | boolean =>
      obtain rfl := Option.some.inj h
      exact .inr (isPlain_booleanText value)

theorem optionalText_eq_some {m : type.Optional} {s : CStr}
    (h : type.optionalText platform m = some s) : s ∈ type.strings .optional m ∨ IsPlain s := by
  rw [optionalText_eq] at h
  obtain ⟨value, hpresent, htext⟩ := Option.bind_eq_some_iff.mp h
  rcases text_eq_some htext with hmem | hplain
  · cases type with
    | string =>
        obtain ⟨s, rfl, rfl⟩ := Option.map_eq_some_iff.mp hpresent
        exact .inl hmem
    | int => cases hmem
    | dateTime => cases hmem
    | boolean => cases hmem
  · exact .inr hplain

/-- The text of an element is a string of the struct, or has no references. -/
theorem mem_texts {cardinality : Cardinality} {cell : type.Cell cardinality} {s : CStr}
    (h : s ∈ type.texts platform cardinality cell) :
    s ∈ type.strings cardinality cell ∨ IsPlain s := by
  cases cardinality with
  | required => exact text_eq_some (Option.mem_toList.mp h)
  | optional => exact optionalText_eq_some (Option.mem_toList.mp h)
  | array =>
      obtain ⟨value, hvalue, htext⟩ := List.mem_filterMap.mp h
      rcases text_eq_some htext with hmem | hplain
      · cases type with
        | string =>
            have hsome := Option.mem_toList.mp hmem
            exact .inl (List.mem_filterMap.mpr ⟨value, hvalue, hsome⟩)
        | int => cases hmem
        | dateTime => cases hmem
        | boolean => cases hmem
      · exact .inr hplain

theorem attributeText_eq_some {required : Bool} {m : type.Optional} {s : CStr}
    (h : type.attributeText platform required m = some s) :
    s ∈ type.strings .optional m ∨ IsPlain s := by
  cases required with
  | true =>
      rcases text_eq_some h with hmem | hplain
      · cases type with
        | string => exact .inl hmem
        | int => cases hmem
        | dateTime => cases hmem
        | boolean => cases hmem
      · exact .inr hplain
  | false => exact optionalText_eq_some h

end Builtin

namespace StructType

/-- The names of elements and attributes, in a type and in those of its elements. -/
def names : StructType → List CStr
  | nil => []
  | element name _ _ rest => name :: rest.names
  | complex name _ type rest => name :: (type.names ++ rest.names)
  | prop name _ _ rest => name :: rest.names

/-- The strings of a struct that are contents of elements. -/
def contents : (type : StructType) → type.Struct → List CStr
  | nil, _ => []
  | element _ cardinality type rest, (cell, others) =>
      type.strings cardinality cell ++ rest.contents others
  | complex _ cardinality type rest, (slot, others) =>
      (cardinality.structs slot).flatMap type.contents ++ rest.contents others
  | prop _ _ _ rest, (_, others) => rest.contents others

/-- The strings of a struct that are attributes. -/
def attributes : (type : StructType) → type.Struct → List CStr
  | nil, _ => []
  | element _ _ _ rest, (_, others) => rest.attributes others
  | complex _ cardinality type rest, (slot, others) =>
      (cardinality.structs slot).flatMap type.attributes ++ rest.attributes others
  | prop _ _ type rest, (m, others) => type.strings .optional m ++ rest.attributes others

variable {platform : TimePlatform}

theorem mem_attributeNames {type : StructType} {self : type.Struct} {a : CStr × CStr}
    (h : a ∈ type.unbindAttributes platform self) : a.1 ∈ type.attributeNames := by
  induction type with
  | nil => cases h
  | element name cardinality type rest ih => exact ih h
  | complex name cardinality type rest _ ih => exact ih h
  | prop name required type rest ih =>
      rcases List.mem_append.mp h with hfirst | hothers
      · rw [(eq_of_mem_unbindString hfirst).1]
        exact List.mem_cons_self
      · exact List.mem_cons_of_mem _ (ih hothers)

/-- The attributes of an element have names of their own. -/
theorem nodup_unbindAttributes {type : StructType} (hdistinct : type.Distinct)
    (self : type.Struct) : ((type.unbindAttributes platform self).map Prod.fst).Nodup := by
  induction type with
  | nil => exact List.nodup_nil
  | element name cardinality type rest ih => exact ih hdistinct.2 self.2
  | complex name cardinality type rest _ ih => exact ih hdistinct.2.2 self.2
  | prop name required type rest ih =>
      obtain ⟨m, others⟩ := self
      rw [unbindAttributes, List.map_append, List.nodup_append]
      refine ⟨?_, ih hdistinct.2 others, ?_⟩
      · cases type.attributeText platform required m with
        | none => exact List.nodup_nil
        | some s => exact List.nodup_singleton name
      · intro key hkey other hother heq
        obtain ⟨a, ha, rfl⟩ := List.mem_map.mp hkey
        obtain ⟨b, hb, rfl⟩ := List.mem_map.mp hother
        apply hdistinct.1
        rw [← (eq_of_mem_unbindString ha).1, heq]
        exact mem_attributeNames hb

theorem valid_unbindAttributes {type : StructType} (hnames : ∀ name ∈ type.names, IsName name)
    {self : type.Struct} (htexts : ∀ s ∈ type.attributes self, IsText s) :
    ∀ a ∈ type.unbindAttributes platform self, IsName a.1 ∧ IsText a.2 := by
  induction type with
  | nil => exact fun _ h => nomatch h
  | element name cardinality type rest ih =>
      exact ih (fun _ h => hnames _ (List.mem_cons_of_mem _ h)) htexts
  | complex name cardinality type rest _ ih =>
      exact ih (fun _ h => hnames _ (List.mem_cons_of_mem _ (List.mem_append_right _ h)))
        fun s hs => htexts s (List.mem_append_right _ hs)
  | prop name required type rest ih =>
      obtain ⟨m, others⟩ := self
      intro a ha
      rcases List.mem_append.mp ha with hfirst | hothers
      · obtain ⟨hname, htext⟩ := eq_of_mem_unbindString hfirst
        refine ⟨hname ▸ hnames name List.mem_cons_self, ?_⟩
        rcases Builtin.attributeText_eq_some htext with hmem | hplain
        · exact htexts _ (List.mem_append_left _ hmem)
        · exact hplain.1
      · exact ih (fun _ h => hnames _ (List.mem_cons_of_mem _ h))
          (fun s hs => htexts s (List.mem_append_right _ hs)) a hothers

theorem valid_unbindElements {ok : CStr → Prop} (hplain : ∀ s, IsPlain s → ok s)
    {type : StructType} (hdistinct : type.Distinct) (hnames : ∀ name ∈ type.names, IsName name)
    {self : type.Struct} (hcontents : ∀ s ∈ type.contents self, ok s)
    (htexts : ∀ s ∈ type.attributes self, IsText s) :
    ∀ b ∈ type.unbindElements platform self, b.Valid ok := by
  induction type with
  | nil => exact fun _ h => nomatch h
  | element name cardinality type rest ih =>
      obtain ⟨cell, others⟩ := self
      intro b hb
      rcases List.mem_append.mp hb with hfirst | hothers
      · obtain ⟨s, hs, rfl⟩ := List.mem_map.mp hfirst
        refine .value (hnames name List.mem_cons_self) ?_
        rcases Builtin.mem_texts hs with hmem | hs
        · exact hcontents s (List.mem_append_left _ hmem)
        · exact hplain s hs
      · exact ih hdistinct.2 (fun _ h => hnames _ (List.mem_cons_of_mem _ h))
          (fun s hs => hcontents s (List.mem_append_right _ hs)) htexts b hothers
  | complex name cardinality type rest ihtype ih =>
      obtain ⟨slot, others⟩ := self
      obtain ⟨-, htype, hrest⟩ := hdistinct
      intro b hb
      rcases List.mem_append.mp hb with hfirst | hothers
      · obtain ⟨self, hself, rfl⟩ := List.mem_map.mp hfirst
        have hinner : ∀ name ∈ type.names, IsName name := fun _ h =>
          hnames _ (List.mem_cons_of_mem _ (List.mem_append_left _ h))
        have hattributes : ∀ s ∈ type.attributes self, IsText s := fun s hs =>
          htexts s (List.mem_append_left _ (List.mem_flatMap.mpr ⟨self, hself, hs⟩))
        refine .node (hnames name List.mem_cons_self) (valid_unbindAttributes hinner hattributes)
          (nodup_unbindAttributes htype self) (ihtype htype hinner ?_ hattributes)
        exact fun s hs =>
          hcontents s (List.mem_append_left _ (List.mem_flatMap.mpr ⟨self, hself, hs⟩))
      · exact ih hrest
          (fun _ h => hnames _ (List.mem_cons_of_mem _ (List.mem_append_right _ h)))
          (fun s hs => hcontents s (List.mem_append_right _ hs))
          (fun s hs => htexts s (List.mem_append_right _ hs)) b hothers
  | prop name required type rest ih =>
      exact ih hdistinct.2 (fun _ h => hnames _ (List.mem_cons_of_mem _ h)) hcontents
        fun s hs => htexts s (List.mem_append_right _ hs)

/-- **Which structs can be written**: numbers and dates always can. -/
theorem unbind_valid (platform : TimePlatform) {ok : CStr → Prop}
    (hplain : ∀ s, IsPlain s → ok s) {type : StructType} (hdistinct : type.Distinct)
    (hnames : ∀ name ∈ type.names, IsName name) {rootName : CStr}
    (hroot : IsName rootName) {self : type.Struct} (hcontents : ∀ s ∈ type.contents self, ok s)
    (htexts : ∀ s ∈ type.attributes self, IsText s) :
    (type.unbind platform rootName self).Valid ok :=
  .node hroot (valid_unbindAttributes hnames htexts) (nodup_unbindAttributes hdistinct self)
    (valid_unbindElements hplain hdistinct hnames hcontents htexts)

/-! ## Documents that are read -/

section Documents

variable {xml : XmlWriter} (hxml : xml.Documented) {type : StructType} (hdistinct : type.Distinct)
  (hnames : ∀ name ∈ type.names, IsName name) {rootName : CStr} (hroot : IsName rootName)
  {self : type.Struct} {text : CStr}

include hxml hdistinct hnames hroot

/-- **What is read for a struct**, if the document that was written for it can be read. -/
theorem eq_reread_of_unmarshal (tmp : Int64) (hcontents : ∀ s ∈ type.contents self, IsText s)
    (htexts : ∀ s ∈ type.attributes self, IsText s)
    (hmarshal : type.marshal xml platform rootName self = some text) {result : type.Struct}
    (hresult : type.unmarshal xml tmp text = some result) :
    result = type.reread xml platform self := by
  obtain ⟨node, hnode, rfl⟩ := Option.map_eq_some_iff.mp hresult
  have hvalid := unbind_valid platform (fun s hs => hs.1) hdistinct hnames hroot
    hcontents htexts
  exact bind_unbind hxml hdistinct tmp (hxml.reread _ text node hvalid hmarshal hnode)

/-- Without references in its strings, the document can be read. -/
theorem unmarshal_of_plain (tmp : Int64) (hcontents : ∀ s ∈ type.contents self, IsPlain s)
    (htexts : ∀ s ∈ type.attributes self, IsText s)
    (hmarshal : type.marshal xml platform rootName self = some text) :
    type.unmarshal xml tmp text = some (type.reread xml platform self) := by
  have hvalid := unbind_valid platform (fun s hs => hs) hdistinct hnames hroot
    hcontents htexts
  obtain ⟨node, hnode⟩ := hxml.readable _ text hvalid hmarshal
  have hresult : type.unmarshal xml tmp text = some (type.bind tmp type.init node) := by
    rw [unmarshal, hnode, Option.map_some]
  rw [hresult, eq_reread_of_unmarshal hxml hdistinct hnames hroot tmp
    (fun s hs => (hcontents s hs).1) htexts hmarshal hresult]

end Documents

end StructType

/-! ## What a struct says -/

namespace Builtin

/-- The values that a document can hold. -/
def Kept (ok : CStr → Prop) : (type : Builtin) → type.Value → Prop
  | string, value => ∀ s, value = some s → ok s
  | int, _ => True
  | dateTime, value => (gmtimeR value).isSome
  | boolean, value => value = 0 ∨ value = 1

/-- Null pointers. -/
def IsNull : (type : Builtin) → type.Value → Prop
  | string, value => value = none
  | int, _ => False
  | dateTime, _ => False
  | boolean, _ => False

/-- The cells that a document can hold: no array has a null pointer in it. -/
def WellFormed (ok : CStr → Prop) (type : Builtin) :
    (cardinality : Cardinality) → type.Cell cardinality → Prop
  | .required, value => type.Kept ok value
  | .optional, m => ∀ value, type.present m = some value → type.Kept ok value
  | .array, values => ∀ value ∈ values, type.Kept ok value ∧ ¬ type.IsNull value

theorem of_mem_strings {ok : CStr → Prop} {type : Builtin} {cardinality : Cardinality}
    {cell : type.Cell cardinality} (h : type.WellFormed ok cardinality cell) {s : CStr}
    (hs : s ∈ type.strings cardinality cell) : ok s := by
  cases type with
  | string =>
      cases cardinality with
      | required => exact h s (Option.mem_toList.mp hs)
      | optional =>
          obtain rfl := Option.mem_toList.mp hs
          exact h (some s) rfl s rfl
      | array =>
          obtain ⟨value, hvalue, rfl⟩ := List.mem_filterMap.mp hs
          exact (h _ hvalue).1 s rfl
  | int => cases hs
  | dateTime => cases hs
  | boolean => cases hs

/-- What a cell says: the companions `_set` are left out. -/
def meaning (type : Builtin) :
    (cardinality : Cardinality) → type.Cell cardinality → cardinality.Slot type.Value
  | .required, value => value
  | .optional, m => type.present m
  | .array, values => values

variable {platform : TimePlatform} {read : CStr → CStr} {ok : CStr → Prop}
  (hok : ∀ s, ok s → read s = s) {type : Builtin}

include hok

theorem rereadValue_of_kept {value : type.Value} (h : type.Kept ok value) :
    type.rereadValue platform read value = value := by
  cases type with
  | string =>
      cases value with
      | none => rfl
      | some s => exact congrArg some (hok s (h s rfl))
  | int => rfl
  | dateTime =>
      have htime : (gmtimeR value).isSome := h
      rw [rereadValue]
      exact datetimeParse_dateTimeText platform htime
  | boolean => rcases h with rfl | rfl <;> rfl

theorem meaning_rereadOptional {m : type.Optional}
    (h : ∀ value, type.present m = some value → type.Kept ok value) :
    type.present (type.rereadOptional platform read m) = type.present m := by
  rw [rereadOptional]
  cases hpresent : type.present m with
  | none => cases type <;> rfl
  | some value =>
      rw [Option.elim_some, rereadValue_of_kept hok (h value hpresent)]
      cases type with
      | string =>
          obtain ⟨s, -, rfl⟩ := Option.map_eq_some_iff.mp hpresent
          rfl
      | int => rfl
      | dateTime => rfl
      | boolean => rfl

theorem meaning_reread {cardinality : Cardinality} {cell : type.Cell cardinality}
    (h : type.WellFormed ok cardinality cell) :
    type.meaning cardinality (type.reread platform read cardinality cell) =
      type.meaning cardinality cell := by
  cases cardinality with
  | required => exact rereadValue_of_kept hok h
  | optional => exact meaning_rereadOptional hok h
  | array =>
      have hsome : ∀ value ∈ cell, (type.text platform value).map
          (fun _ => type.rereadValue platform read value) = some value := by
        intro value hvalue
        obtain ⟨hkept, hnull⟩ := h value hvalue
        rw [rereadValue_of_kept hok hkept]
        cases type with
        | string =>
            obtain ⟨s, rfl⟩ := Option.ne_none_iff_exists'.mp hnull
            rfl
        | int => rfl
        | dateTime => rfl
        | boolean => rfl
      rw [meaning, meaning, reread, List.filterMap_congr hsome, List.filterMap_some]

end Builtin

namespace StructType

/-- Whether an attribute is there is up to the schema. -/
def attributeCardinality (required : Bool) : Cardinality :=
  if required then .required else .optional

def attributeMeaning (type : Builtin) :
    (required : Bool) → type.Optional → (attributeCardinality required).Slot type.Value
  | true, m => type.held m
  | false, m => type.present m

/-- What a struct says: a value for every member that has one. -/
@[reducible] def Meaning : StructType → Type
  | nil => Unit
  | element _ cardinality type rest => cardinality.Slot type.Value × rest.Meaning
  | complex _ cardinality type rest => cardinality.Slot type.Meaning × rest.Meaning
  | prop _ required type rest => (attributeCardinality required).Slot type.Value × rest.Meaning

def meaning : (type : StructType) → type.Struct → type.Meaning
  | nil, _ => ()
  | element _ cardinality type rest, (cell, others) =>
      (type.meaning cardinality cell, rest.meaning others)
  | complex _ cardinality type rest, (slot, others) =>
      (cardinality.map type.meaning slot, rest.meaning others)
  | prop _ required type rest, (m, others) =>
      (attributeMeaning type required m, rest.meaning others)

/-- The structs that a document can hold: contents have no references, attributes are
texts, booleans are zero or one, and dates have a year. -/
def WellFormed : (type : StructType) → type.Struct → Prop
  | nil, _ => True
  | element _ cardinality type rest, (cell, others) =>
      type.WellFormed IsPlain cardinality cell ∧ rest.WellFormed others
  | complex _ cardinality type rest, (slot, others) =>
      (∀ self ∈ cardinality.structs slot, type.WellFormed self) ∧ rest.WellFormed others
  | prop _ required type rest, (m, others) =>
      (∀ value ∈ (attributeCardinality required).structs (attributeMeaning type required m),
        type.Kept IsText value) ∧ rest.WellFormed others

end StructType

namespace Cardinality

theorem map_map {σ τ υ : Type} {f : σ → τ} {g : τ → υ} {cardinality : Cardinality}
    (slot : cardinality.Slot σ) :
    cardinality.map g (cardinality.map f slot) = cardinality.map (fun self => g (f self)) slot := by
  cases cardinality with
  | required => rfl
  | optional => exact Option.map_map g f slot
  | array => exact List.map_map

theorem map_congr {σ τ : Type} {f g : σ → τ} {cardinality : Cardinality}
    {slot : cardinality.Slot σ} (h : ∀ self ∈ cardinality.structs slot, f self = g self) :
    cardinality.map f slot = cardinality.map g slot := by
  cases cardinality with
  | required => exact h slot List.mem_cons_self
  | optional =>
      cases slot with
      | none => rfl
      | some self => exact congrArg some (h self List.mem_cons_self)
  | array => exact List.map_congr_left h

end Cardinality

namespace StructType

variable {xml : XmlWriter} (hxml : xml.Documented) {platform : TimePlatform} {type : StructType}
  {self : type.Struct}

theorem attributeMeaning_reread {required : Bool} {type : Builtin} {m : type.Optional}
    (h : ∀ value ∈ (attributeCardinality required).structs (attributeMeaning type required m),
      type.Kept IsText value) :
    attributeMeaning type required (type.rereadAttribute platform id required m) =
      attributeMeaning type required m := by
  have hid : ∀ s, IsText s → id s = s := fun _ _ => rfl
  cases required with
  | true =>
      have hkept : type.rereadValue platform id (attributeMeaning type true m) =
          attributeMeaning type true m :=
        Builtin.rereadValue_of_kept hid (h _ List.mem_cons_self)
      rw [attributeMeaning, attributeMeaning, Builtin.rereadAttribute, if_pos rfl]
      rw [attributeMeaning] at hkept
      rw [hkept]
      cases type <;> rfl
  | false =>
      apply Builtin.meaning_rereadOptional hid
      intro value hvalue
      exact h value (Option.mem_toList.mpr hvalue)

include hxml

/-- **A well-formed struct says the same** when it is read back. -/
theorem meaning_reread (hself : type.WellFormed self) :
    type.meaning (type.reread xml platform self) = type.meaning self := by
  have htext : ∀ s, IsPlain s → xml.textOf s = s := fun _ => hxml.textOf_of_isPlain
  induction type with
  | nil => rfl
  | element name cardinality type rest ih =>
      obtain ⟨cell, others⟩ := self
      rw [reread, meaning, meaning, Builtin.meaning_reread htext hself.1, ih hself.2]
  | complex name cardinality type rest ihtype ih =>
      obtain ⟨slot, others⟩ := self
      have hslot : cardinality.map type.meaning (cardinality.map (type.reread xml platform) slot) =
          cardinality.map type.meaning slot :=
        (Cardinality.map_map slot).trans (Cardinality.map_congr fun self hmem =>
          ihtype (hself.1 self hmem))
      rw [reread, meaning, meaning, hslot, ih hself.2]
  | prop name required type rest ih =>
      obtain ⟨m, others⟩ := self
      rw [reread, meaning, meaning, attributeMeaning_reread hself.1, ih hself.2]

end StructType

/-! ## The round trip -/

namespace StructType

theorem isPlain_of_wellFormed {type : StructType} {self : type.Struct}
    (hself : type.WellFormed self) : ∀ s ∈ type.contents self, IsPlain s := by
  induction type with
  | nil => exact fun _ h => nomatch h
  | element name cardinality type rest ih =>
      obtain ⟨cell, others⟩ := self
      intro s hs
      rcases List.mem_append.mp hs with hfirst | hothers
      · exact Builtin.of_mem_strings hself.1 hfirst
      · exact ih hself.2 s hothers
  | complex name cardinality type rest ihtype ih =>
      obtain ⟨slot, others⟩ := self
      intro s hs
      rcases List.mem_append.mp hs with hfirst | hothers
      · obtain ⟨inner, hinner, hs⟩ := List.mem_flatMap.mp hfirst
        exact ihtype (hself.1 inner hinner) s hs
      · exact ih hself.2 s hothers
  | prop name required type rest ih => exact ih hself.2

theorem isText_of_wellFormed {type : StructType} {self : type.Struct}
    (hself : type.WellFormed self) : ∀ s ∈ type.attributes self, IsText s := by
  induction type with
  | nil => exact fun _ h => nomatch h
  | element name cardinality type rest ih => exact ih hself.2
  | complex name cardinality type rest ihtype ih =>
      obtain ⟨slot, others⟩ := self
      intro s hs
      rcases List.mem_append.mp hs with hfirst | hothers
      · obtain ⟨inner, hinner, hs⟩ := List.mem_flatMap.mp hfirst
        exact ihtype (hself.1 inner hinner) s hs
      · exact ih hself.2 s hothers
  | prop name required type rest ih =>
      obtain ⟨m, others⟩ := self
      intro s hs
      rcases List.mem_append.mp hs with hfirst | hothers
      · cases type with
        | string =>
            obtain rfl := Option.mem_toList.mp hfirst
            cases required with
            | true => exact hself.1 (some s) List.mem_cons_self s rfl
            | false => exact hself.1 (some s) List.mem_cons_self s rfl
        | int => cases hfirst
        | dateTime => cases hfirst
        | boolean => cases hfirst
      · exact ih hself.2 s hothers

/-- **A well-formed struct makes the round trip.** -/
theorem unmarshal_of_wellFormed {xml : XmlWriter} (hxml : xml.Documented)
    (platform : BindingPlatform) {type : StructType} (hdistinct : type.Distinct)
    (hnames : ∀ name ∈ type.names, IsName name) {rootName : CStr} (hroot : IsName rootName)
    {self : type.Struct} (hself : type.WellFormed self) {text : CStr}
    (hmarshal : type.marshal xml platform.toTimePlatform rootName self = some text) :
    (type.unmarshal xml platform.tmp text).map type.meaning = some (type.meaning self) := by
  rw [unmarshal_of_plain hxml hdistinct hnames hroot platform.tmp (isPlain_of_wellFormed hself)
    (isText_of_wellFormed hself) hmarshal, Option.map_some, meaning_reread hxml hself]

end StructType

end Atmos
