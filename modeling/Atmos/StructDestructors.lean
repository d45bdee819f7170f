import Atmos.GeneratedStructs

/-!
# Generated destructors

The generated `_destroy` of a complex type frees the strings and arrays of a struct and
leaves it as `_init` does. The target of a pointer is destroyed, and the pointer set to
null, but the block of the target is not freed.

* `StructType.blocks` — the blocks that a struct holds, by their places in it;
* `StructType.destroy` — the places that are freed, and the struct that is left;
* `StructType.destroy_frees` — every block is freed once, except the targets of pointers.
-/

namespace Atmos

open ByteText

/-! ## Places -/

/-- The way to a block: on to the first member or entry, or past it, at each step. -/
abbrev Place := List Bool

/-- Places in a first part, and in what follows. -/
def sections (first rest : List Place) : List Place :=
  first.map (true :: ·) ++ rest.map (false :: ·)

/-- Places in the entries of an array. -/
def entries {α : Type} (places : α → List Place) : List α → List Place
  | [] => []
  | value :: values => sections (places value) (entries places values)

theorem sections_append (a b c d : List Place) :
    (sections a b ++ sections c d).Perm (sections (a ++ c) (b ++ d)) := by
  unfold sections
  rw [List.map_append, List.map_append, List.append_assoc, List.append_assoc]
  apply List.Perm.append_left
  rw [← List.append_assoc, ← List.append_assoc]
  exact List.perm_append_comm.append_right _

theorem sections_perm {first rest first' rest' : List Place} (hfirst : first.Perm first')
    (hrest : rest.Perm rest') : (sections first rest).Perm (sections first' rest') :=
  (hfirst.map _).append (hrest.map _)

/-- Two parts whose blocks are freed or kept. -/
theorem sections_split {freed kept all freed' kept' all' : List Place}
    (h : (freed ++ kept).Perm all) (h' : (freed' ++ kept').Perm all') :
    (sections freed freed' ++ sections kept kept').Perm (sections all all') :=
  (sections_append freed freed' kept kept').trans (sections_perm h h')

theorem nodup_sections {first rest : List Place} (hfirst : first.Nodup) (hrest : rest.Nodup) :
    (sections first rest).Nodup := by
  apply (hfirst.map List.cons_injective).append (hrest.map List.cons_injective)
  intro place hleft hright
  obtain ⟨p, -, rfl⟩ := List.mem_map.mp hleft
  obtain ⟨q, -, hq⟩ := List.mem_map.mp hright
  cases hq

section Entries

variable {α : Type} {values : List α}

theorem entries_split {freed kept all : α → List Place}
    (h : ∀ value ∈ values, (freed value ++ kept value).Perm (all value)) :
    (entries freed values ++ entries kept values).Perm (entries all values) := by
  induction values with
  | nil => exact List.Perm.nil
  | cons value values ih =>
      obtain ⟨hfirst, hrest⟩ := List.forall_mem_cons.mp h
      exact sections_split hfirst (ih hrest)

theorem nodup_entries {places : α → List Place} (h : ∀ value ∈ values, (places value).Nodup) :
    (entries places values).Nodup := by
  induction values with
  | nil => exact List.nodup_nil
  | cons value values ih =>
      obtain ⟨hfirst, hrest⟩ := List.forall_mem_cons.mp h
      exact nodup_sections hfirst (ih hrest)

end Entries

/-- A block of its own and what it leads to. -/
def owned (inner : List Place) : List Place := [] :: inner.map (true :: ·)

theorem nodup_owned {inner : List Place} (h : inner.Nodup) : (owned inner).Nodup := by
  refine List.nodup_cons.mpr ⟨?_, h.map List.cons_injective⟩
  intro hmem
  obtain ⟨p, -, hp⟩ := List.mem_map.mp hmem
  cases hp

/-! ## Members -/

namespace Builtin

/-- The block of a value: a string has one. -/
def valueBlocks : (type : Builtin) → type.Value → List Place
  | string, text => text.toList.map fun _ => []
  | int, _ => []
  | dateTime, _ => []
  | boolean, _ => []

def blocks (type : Builtin) : (cardinality : Cardinality) → type.Cell cardinality → List Place
  | .required, value => type.valueBlocks value
  | .optional, m => type.valueBlocks (type.held m)
  | .array, [] => []
  | .array, values => owned (entries type.valueBlocks values)

/-- `xsd_type_destroy` for a builtin type: what is freed, and what is left. The strings of
an array are freed before it is. -/
def destroy (type : Builtin) :
    (cardinality : Cardinality) → type.Cell cardinality → List Place × type.Cell cardinality
  | .required, value => (type.valueBlocks value, type.initValue)
  | .optional, m => (type.valueBlocks (type.held m), type.initOptional)
  | .array, [] => ([], [])
  | .array, values => ((entries type.valueBlocks values).map (true :: ·) ++ [[]], [])

variable {type : Builtin}

theorem nodup_valueBlocks (value : type.Value) : (type.valueBlocks value).Nodup := by
  cases type with
  | string => cases value <;> simp [valueBlocks]
  | int => exact List.nodup_nil
  | dateTime => exact List.nodup_nil
  | boolean => exact List.nodup_nil

theorem nodup_blocks {cardinality : Cardinality} (cell : type.Cell cardinality) :
    (type.blocks cardinality cell).Nodup := by
  cases cardinality with
  | required => exact nodup_valueBlocks _
  | optional => exact nodup_valueBlocks _
  | array =>
      cases cell with
      | nil => exact List.nodup_nil
      | cons value values => exact nodup_owned (nodup_entries fun _ _ => nodup_valueBlocks _)

theorem destroy_perm {cardinality : Cardinality} (cell : type.Cell cardinality) :
    (type.destroy cardinality cell).1.Perm (type.blocks cardinality cell) := by
  cases cardinality with
  | required => exact List.Perm.refl _
  | optional => exact List.Perm.refl _
  | array =>
      cases cell with
      | nil => exact List.Perm.nil
      | cons value values => exact List.perm_append_comm

theorem destroy_left {cardinality : Cardinality} (cell : type.Cell cardinality) :
    (type.destroy cardinality cell).2 = type.init cardinality := by
  cases cardinality with
  | required => rfl
  | optional => rfl
  | array => cases cell <;> rfl

end Builtin

namespace Cardinality

variable {σ : Type}

/-- The blocks of an embedded struct, of a pointer's target, and of an array. -/
def blocks (inner : σ → List Place) : (cardinality : Cardinality) → cardinality.Slot σ → List Place
  | required, self => inner self
  | optional, none => []
  | optional, some target => owned (inner target)
  | array, [] => []
  | array, values => owned (entries inner values)

/-- The targets of pointers. -/
def targets (inner : σ → List Place) : (cardinality : Cardinality) → cardinality.Slot σ → List Place
  | required, self => inner self
  | optional, none => []
  | optional, some target => owned (inner target)
  | array, values => (entries inner values).map (true :: ·)

/-- `xsd_type_destroy` for a complex type. -/
def destroy (inner : σ → List Place × σ) :
    (cardinality : Cardinality) → cardinality.Slot σ → List Place × cardinality.Slot σ
  | required, self => inner self
  | optional, none => ([], none)
  | optional, some target => ((inner target).1.map (true :: ·), none)
  | array, [] => ([], [])
  | array, values => ((entries (fun self => (inner self).1) values).map (true :: ·) ++ [[]], [])

/-- The number of pointers that are not null. -/
def pointers (inner : σ → Nat) : (cardinality : Cardinality) → cardinality.Slot σ → Nat
  | required, self => inner self
  | optional, none => 0
  | optional, some target => inner target + 1
  | array, values => values.foldr (inner · + ·) 0

variable {cardinality : Cardinality} {slot : cardinality.Slot σ}

theorem nodup_blocks {inner : σ → List Place} (h : ∀ self, (inner self).Nodup) :
    (cardinality.blocks inner slot).Nodup := by
  cases cardinality with
  | required => exact h slot
  | optional =>
      cases slot with
      | none => exact List.nodup_nil
      | some target => exact nodup_owned (h target)
  | array =>
      cases slot with
      | nil => exact List.nodup_nil
      | cons value values => exact nodup_owned (nodup_entries fun self _ => h self)

/-- The targets of pointers are not freed, all other blocks are. -/
theorem destroy_split {inner : σ → List Place × σ} {targets blocks : σ → List Place}
    (h : ∀ self, ((inner self).1 ++ targets self).Perm (blocks self)) :
    ((cardinality.destroy inner slot).1 ++ cardinality.targets targets slot).Perm
      (cardinality.blocks blocks slot) := by
  cases cardinality with
  | required => exact h slot
  | optional =>
      cases slot with
      | none => exact List.Perm.nil
      | some target =>
          have hinner := (h target).map (true :: ·)
          rw [List.map_append] at hinner
          exact List.perm_middle.trans (hinner.cons [])
  | array =>
      cases slot with
      | nil => exact List.Perm.nil
      | cons value values =>
          have hentries : (entries (fun self => (inner self).1) (value :: values) ++
              entries targets (value :: values)).Perm (entries blocks (value :: values)) :=
            entries_split fun self _ => h self
          have hinner := hentries.map (true :: ·)
          rw [List.map_append] at hinner
          have hsplit : (((entries (fun self => (inner self).1) (value :: values)).map
              (true :: ·) ++ [[]]) ++ (entries targets (value :: values)).map (true :: ·)).Perm
                (owned (entries blocks (value :: values))) := by
            rw [List.append_assoc, List.singleton_append]
            exact List.perm_middle.trans (hinner.cons [])
          exact hsplit

theorem destroy_left {inner : σ → List Place × σ} {zero : σ} (h : ∀ self, (inner self).2 = zero) :
    (cardinality.destroy inner slot).2 = cardinality.init zero := by
  cases cardinality with
  | required => exact h slot
  | optional => cases slot <;> rfl
  | array => cases slot <;> rfl

theorem length_targets {targets : σ → List Place} {pointers : σ → Nat}
    (h : ∀ self, (targets self).length = pointers self) :
    (cardinality.targets targets slot).length = cardinality.pointers pointers slot := by
  cases cardinality with
  | required => exact h slot
  | optional =>
      cases slot with
      | none => rfl
      | some target =>
          rw [Cardinality.targets, Cardinality.pointers, owned, List.length_cons,
            List.length_map, h]
  | array =>
      rw [Cardinality.targets, Cardinality.pointers, List.length_map]
      induction slot with
      | nil => rfl
      | cons value values ih =>
          rw [entries, sections, List.length_append, List.length_map, List.length_map, ih, h,
            List.foldr_cons]

end Cardinality

/-! ## Structs -/

namespace StructType

/-- The blocks that a struct holds. -/
def blocks : (type : StructType) → type.Struct → List Place
  | nil, _ => []
  | element _ cardinality type rest, (cell, others) =>
      sections (type.blocks cardinality cell) (rest.blocks others)
  | complex _ cardinality type rest, (slot, others) =>
      sections (cardinality.blocks type.blocks slot) (rest.blocks others)
  | prop _ _ type rest, (m, others) =>
      sections (type.blocks .optional m) (rest.blocks others)

/-- The blocks that the pointers of a struct lead to. -/
def targets : (type : StructType) → type.Struct → List Place
  | nil, _ => []
  | element _ _ _ rest, (_, others) => sections [] (rest.targets others)
  | complex _ cardinality type rest, (slot, others) =>
      sections (cardinality.targets type.targets slot) (rest.targets others)
  | prop _ _ _ rest, (_, others) => sections [] (rest.targets others)

/-- The number of pointers that are not null, at any depth. -/
def pointers : (type : StructType) → type.Struct → Nat
  | nil, _ => 0
  | element _ _ _ rest, (_, others) => rest.pointers others
  | complex _ cardinality type rest, (slot, others) =>
      cardinality.pointers type.pointers slot + rest.pointers others
  | prop _ _ _ rest, (_, others) => rest.pointers others

/-- `implement-destructor`: the places that are freed, and the struct that is left. -/
def destroy : (type : StructType) → type.Struct → List Place × type.Struct
  | nil, self => ([], self)
  | element _ cardinality type rest, (cell, others) =>
      (sections (type.destroy cardinality cell).1 (rest.destroy others).1,
        (type.destroy cardinality cell).2, (rest.destroy others).2)
  | complex _ cardinality type rest, (slot, others) =>
      (sections (cardinality.destroy type.destroy slot).1 (rest.destroy others).1,
        (cardinality.destroy type.destroy slot).2, (rest.destroy others).2)
  | prop _ _ type rest, (m, others) =>
      (sections (type.destroy .optional m).1 (rest.destroy others).1,
        (type.destroy .optional m).2, (rest.destroy others).2)

variable {type : StructType}

theorem nodup_blocks (self : type.Struct) : (type.blocks self).Nodup := by
  induction type with
  | nil => exact List.nodup_nil
  | element name cardinality type rest ih =>
      exact nodup_sections (Builtin.nodup_blocks self.1) (ih self.2)
  | complex name cardinality type rest ihtype ih =>
      exact nodup_sections (Cardinality.nodup_blocks ihtype) (ih self.2)
  | prop name required type rest ih =>
      have hcell := @Builtin.nodup_blocks type .optional self.1
      exact nodup_sections hcell (ih self.2)

theorem destroy_split (self : type.Struct) :
    ((type.destroy self).1 ++ type.targets self).Perm (type.blocks self) := by
  induction type with
  | nil => exact List.Perm.nil
  | element name cardinality type rest ih =>
      have hcell := Builtin.destroy_perm self.1
      rw [← List.append_nil (type.destroy cardinality self.1).1] at hcell
      exact sections_split hcell (ih self.2)
  | complex name cardinality type rest ihtype ih =>
      exact sections_split (Cardinality.destroy_split ihtype) (ih self.2)
  | prop name required type rest ih =>
      have hcell := @Builtin.destroy_perm type .optional self.1
      rw [← List.append_nil (type.destroy .optional self.1).1] at hcell
      exact sections_split hcell (ih self.2)

theorem destroy_left (self : type.Struct) : (type.destroy self).2 = type.init := by
  induction type with
  | nil => rfl
  | element name cardinality type rest ih =>
      exact Prod.ext (Builtin.destroy_left self.1) (ih self.2)
  | complex name cardinality type rest ihtype ih =>
      exact Prod.ext (Cardinality.destroy_left ihtype) (ih self.2)
  | prop name required type rest ih =>
      have hcell := @Builtin.destroy_left type .optional self.1
      exact Prod.ext hcell (ih self.2)

theorem length_targets (self : type.Struct) :
    (type.targets self).length = type.pointers self := by
  induction type with
  | nil => rfl
  | element name cardinality type rest ih =>
      rw [targets, sections, List.map_nil, List.nil_append, List.length_map]
      exact ih self.2
  | complex name cardinality type rest ihtype ih =>
      rw [targets, sections, List.length_append, List.length_map, List.length_map,
        Cardinality.length_targets ihtype, ih]
      rfl
  | prop name required type rest ih =>
      rw [targets, sections, List.map_nil, List.nil_append, List.length_map]
      exact ih self.2

/-- An initialised struct holds no blocks. -/
theorem blocks_init : type.blocks type.init = [] := by
  induction type with
  | nil => rfl
  | element name cardinality type rest ih =>
      have hcell : type.blocks cardinality (type.init cardinality) = [] := by
        cases cardinality <;> cases type <;> rfl
      rw [init, blocks, hcell, ih]
      rfl
  | complex name cardinality type rest ihtype ih =>
      have hslot : cardinality.blocks type.blocks (cardinality.init type.init) = [] := by
        cases cardinality with
        | required => exact ihtype
        | optional => rfl
        | array => rfl
      rw [init, blocks, hslot, ih]
      rfl
  | prop name required type rest ih =>
      have hcell : type.blocks .optional type.initOptional = [] := by cases type <;> rfl
      rw [init, blocks, hcell, ih]
      rfl

/-- **What a generated destructor frees.** It leaves the struct as `_init` does, so that
destroying it again frees nothing; it frees no block twice and none that the struct does
not hold, and it frees all of them but one for every pointer that is not null, at any depth:
the struct that the pointer leads to. -/
theorem destroy_frees (type : StructType) (self : type.Struct) :
    (type.destroy self).2 = type.init ∧ (type.destroy (type.destroy self).2).1 = [] ∧
      (type.destroy self).1.Nodup ∧
      (∀ place, place ∈ (type.destroy self).1 ↔
        place ∈ type.blocks self ∧ place ∉ type.targets self) ∧
      (type.destroy self).1.length + type.pointers self = (type.blocks self).length := by
  have hsplit := destroy_split self
  have hnodup := hsplit.nodup_iff.mpr (nodup_blocks self)
  obtain ⟨hfreed, -, hdisjoint⟩ := List.nodup_append.mp hnodup
  refine ⟨destroy_left self, ?_, hfreed, fun place => ?_, ?_⟩
  · have hagain : ((type.destroy type.init).1 ++ type.targets type.init).Perm [] :=
      blocks_init ▸ destroy_split type.init
    rw [destroy_left]
    exact (List.append_eq_nil_iff.mp hagain.eq_nil).1
  · rw [← hsplit.mem_iff, List.mem_append]
    constructor
    · exact fun hmem => ⟨.inl hmem, fun htarget => hdisjoint place hmem place htarget rfl⟩
    · rintro ⟨hmem | htarget, hnot⟩
      · exact hmem
      · exact absurd htarget hnot
  · rw [← length_targets, ← List.length_append, hsplit.length_eq]

end StructType

end Atmos
