import Atmos.MetadataTexts

/-!
# Counted metadata

The user metadata of an entry is read in two passes over the same elements.  The
first counts the regular and the listable ones; the second stores each in an
array that was made for its count, at an index it counts up itself.

* `nextSlots_foldlM` — the indices of the second pass are the counts of the first
  for the elements it has left behind;
* `usermeta_counted_and_filled` — so no index reaches its count before the end,
  and there both have, with every entry in its slot.
-/

namespace Atmos

open ByteText FixedMemory XmlTree AtmosUtil AtmosObjectMetadata

/-! ## Counts and indices -/

/-- The indices the second pass has reached, of regular and listable metadata. -/
def nextSlots (arrays : MetadataArray × MetadataArray) : Nat × Nat := (arrays.1.2, arrays.2.2)

/-- The number for one kind. -/
def ofKind (listable : Bool) (counts : Nat × Nat) : Nat := if listable then counts.2 else counts.1

/-- What the first pass counts. -/
def usermetaCounts (xml : XmlText) (children : List Node) : Nat × Nat :=
  children.foldl (countChild xml) (0, 0)

/-- What the second pass starts with: the arrays as allocated, at their first
slots. -/
def allocatedArrays (xml : XmlText) (self : AtmosObjectMetadata) (children : List Node) :
    MetadataArray × MetadataArray :=
  (((allocate (usermetaCounts xml children).1 self.metadata).1, 0),
    ((allocate (usermetaCounts xml children).2 self.listableMeta).1, 0))

/-- The counts of some entries. -/
theorem ofKind_foldl (items : List ParsedMeta) (listable : Bool) :
    ofKind listable (items.foldl countItem (0, 0)) = items.countP (·.listable == listable) := by
  rw [foldl_countItem, List.countP_eq_length_filter, Nat.zero_add, Nat.zero_add]
  cases listable with
  | true => simp only [ofKind, if_pos, beq_true]
  | false => simp only [ofKind, Bool.false_eq_true, if_false, beq_false]

/-- A store goes to the next slot. -/
theorem appendSlot_next {σ π : Type} {store : π → σ → σ} {array array' : List σ × Nat} {item : π}
    (h : appendSlot store array item = some array') : array'.2 = array.2 + 1 := by
  obtain ⟨slot, -, hstored⟩ := Option.bind_eq_some_iff.mp h
  obtain rfl := Option.some.inj hstored
  rfl

/-- **One round of the second pass** counts up the index the first pass counts up
as well. -/
theorem nextSlots_fillItem {arrays arrays' : MetadataArray × MetadataArray} {parsed : ParsedMeta}
    (h : fillItem arrays parsed = some arrays') :
    nextSlots arrays' = countItem (nextSlots arrays) parsed := by
  rw [fillItem] at h
  rw [countItem]
  split at h
  · rename_i hlistable
    obtain ⟨array, hstore, rfl⟩ := Option.map_eq_some_iff.mp h
    rw [if_pos hlistable, nextSlots, appendSlot_next hstore]
    rfl
  · rename_i hregular
    obtain ⟨array, hstore, rfl⟩ := Option.map_eq_some_iff.mp h
    rw [if_neg hregular, nextSlots, appendSlot_next hstore]
    rfl

/-- So do all rounds. -/
theorem nextSlots_foldlM {items : List ParsedMeta} {arrays arrays' : MetadataArray × MetadataArray}
    (h : items.foldlM fillItem arrays = some arrays') :
    nextSlots arrays' = items.foldl countItem (nextSlots arrays) := by
  induction items generalizing arrays with
  | nil =>
      obtain rfl := Option.some.inj h
      rfl
  | cons parsed items ih =>
      rw [List.foldlM_cons] at h
      obtain ⟨middle, hfill, hrest⟩ := Option.bind_eq_some_iff.mp h
      rw [ih hrest, nextSlots_fillItem hfill]
      rfl

/-! ## Both passes over a list -/

section Passes

variable (xml : XmlText) (self : AtmosObjectMetadata) (children : List Node)

/-- Whenever the second pass comes to an element with an entry, the index for it
is below what the first pass has counted. -/
def StaysBelow : Prop :=
  ∀ before child after arrays parsed, children = before ++ child :: after →
    before.foldlM (fillChild xml) (allocatedArrays xml self children) = some arrays →
    usermetaItem xml child = some parsed →
    ofKind parsed.listable (nextSlots arrays) <
      ofKind parsed.listable (usermetaCounts xml children)

/-- In the end it has reached what was counted. -/
def FillsAll : Prop :=
  ∃ arrays, children.foldlM (fillChild xml) (allocatedArrays xml self children) = some arrays ∧
    nextSlots arrays = usermetaCounts xml children

/-- The number of `Metadata` elements. -/
def metadataCount : Nat :=
  children.countP fun child => child.onElement false fun name _ => name = dirNodeMetadata

/-- The texts of those of one kind, in their order. -/
def kindTexts (listable : Bool) : List ListedText :=
  (listedTexts xml children).filter (·.listable == listable)

theorem usermetaCounts_eq :
    usermetaCounts xml children = (children.filterMap (usermetaItem xml)).foldl countItem (0, 0) :=
  foldl_items (countChild_eq xml) children (0, 0)

/-- **No index reaches its count** while there is an entry to store. -/
theorem staysBelow : StaysBelow xml self children := by
  intro before child after arrays parsed hsplit hrun hitem
  rw [foldlM_items (fillChild_eq xml)] at hrun
  have hstart : nextSlots (allocatedArrays xml self children) = (0, 0) := rfl
  have hreached := nextSlots_foldlM hrun
  have hitems : children.filterMap (usermetaItem xml) =
      before.filterMap (usermetaItem xml) ++ parsed :: after.filterMap (usermetaItem xml) := by
    rw [hsplit, List.filterMap_append, List.filterMap_cons_some hitem]
  rw [hreached, hstart, usermetaCounts_eq, hitems, ofKind_foldl, ofKind_foldl, List.countP_append,
    List.countP_cons_of_pos (by simp)]
  omega

/-- The counts are those of all `Metadata` elements. -/
theorem usermetaCounts_total :
    (usermetaCounts xml children).1 + (usermetaCounts xml children).2 =
      metadataCount children := by
  have hkinds : ∀ items : List ParsedMeta,
      (items.foldl countItem (0, 0)).1 + (items.foldl countItem (0, 0)).2 = items.length := by
    intro items
    rw [foldl_countItem, Nat.zero_add, Nat.zero_add, Nat.add_comm]
    exact (List.length_eq_length_filter_add _).symm
  rw [usermetaCounts_eq, hkinds, metadataCount]
  induction children with
  | nil => rfl
  | cons child children ih =>
      rw [List.countP_cons, ← ih]
      cases child with
      | element name children' =>
          by_cases hname : name = dirNodeMetadata
          · simp [usermetaItem, Node.onElement, hname]
          · simp [usermetaItem, Node.onElement, hname]
      | _ => rfl

/-- There are as many texts of a kind as were counted. -/
theorem length_kindTexts (listable : Bool) :
    (kindTexts xml children listable).length =
      ofKind listable (usermetaCounts xml children) := by
  rw [usermetaCounts_eq, ofKind_foldl, filterMap_usermetaItem_eq, List.countP_map, kindTexts,
    List.countP_eq_length_filter]
  rfl

end Passes

/-! ## The arrays -/

section Arrays

variable {xml : XmlText} (hnul : ∀ node text, xml.nodeGetContent node = some text → 0 ∉ text)

include hnul

/-- **Counting and filling.**  The second pass never stores at an index its count
does not cover, and fills all that was counted.  An array for the entries of a
kind holds these, one for no entries stays as it was; in a new object both arrays
together hold as many as there are `Metadata` elements. -/
theorem usermeta_counted_and_filled (self : AtmosObjectMetadata) {children : List Node}
    (hfits : ∀ texts ∈ listedTexts xml children, texts.Fits) :
    ∃ self', self.parseUsermeta xml children = some self' ∧
      StaysBelow xml self children ∧ FillsAll xml self children ∧
      (usermetaCounts xml children).1 + (usermetaCounts xml children).2 =
        metadataCount children ∧
      (∀ listable, kindTexts xml children listable ≠ [] →
        ArrayHolds (userArray listable self') (kindTexts xml children listable)) ∧
      (∀ listable, kindTexts xml children listable = [] →
        userArray listable self' = userArray listable self) ∧
      ((∀ listable, userArray listable self = ([], 0)) →
        (userArray false self').2 + (userArray true self').2 = metadataCount children ∧
        ∀ listable, ArrayHolds (userArray listable self') (kindTexts xml children listable)) := by
  obtain ⟨self', hparse⟩ : ∃ self', self.parseUsermeta xml children = some self' :=
    ⟨_, parseUsermeta_eq xml self children⟩
  have harray : ∀ listable, userArray listable self' =
      filledArray ((kindTexts xml children listable).map ListedText.parsed)
        (userArray listable self) := userArray_parseUsermeta xml hparse
  have hkind : ∀ listable, ∀ t ∈ kindTexts xml children listable, t ∈ listedTexts xml children :=
    fun _ _ ht => List.mem_of_mem_filter ht
  have hfull : ∀ listable, kindTexts xml children listable ≠ [] →
      ArrayHolds (userArray listable self') (kindTexts xml children listable) := by
    intro listable hsome
    rw [harray, filledArray_parsed, if_neg hsome, Option.map_some, Option.getD_some,
      arrayOf_holds_iff fun t ht => nulFree_listedTexts hnul t (hkind listable t ht)]
    exact fun t ht => hfits t (hkind listable t ht)
  have hempty : ∀ listable, kindTexts xml children listable = [] →
      userArray listable self' = userArray listable self := by
    intro listable hnone
    rw [harray, hnone]
    rfl
  have hfills : FillsAll xml self children := by
    obtain ⟨arrays, hrun, -⟩ := Option.map_eq_some_iff.mp hparse
    refine ⟨arrays, hrun, ?_⟩
    rw [foldlM_items (fillChild_eq xml)] at hrun
    rw [nextSlots_foldlM hrun, usermetaCounts_eq]
    rfl
  refine ⟨self', hparse, staysBelow xml self children, hfills, usermetaCounts_total xml children,
    hfull, hempty, ?_⟩
  intro hnew
  have hheld : ∀ listable,
      ArrayHolds (userArray listable self') (kindTexts xml children listable) := by
    intro listable
    by_cases hnone : kindTexts xml children listable = []
    · rw [hempty listable hnone, hnew, hnone]
      exact ⟨rfl, .nil⟩
    · exact hfull listable hnone
  refine ⟨?_, hheld⟩
  rw [(hheld false).1, (hheld true).1, length_kindTexts, length_kindTexts,
    ← usermetaCounts_total xml children]
  rfl

end Arrays

/-- A list with a listable entry, another element and an entry named twice. -/
def draftMetadata : List Node :=
  [.text (bytes "\n"),
    .element dirNodeMetadata [.textElement dirNodeListable (bytes "true"),
      .textElement dirNodeName (bytes "color"), .textElement dirNodeValue (bytes "red")],
    .textElement (bytes "Comment") (bytes "none"),
    .element dirNodeMetadata [.textElement dirNodeName (bytes "draft"),
      .textElement dirNodeName (bytes "title")]]

/-- The arrays of a new object hold one entry each. -/
theorem usermeta_counted_and_filled_draft :
    ∃ self', AtmosObjectMetadata.zero.parseUsermeta LibxmlReader.blind.toXmlText draftMetadata =
        some self' ∧
      (userArray false self').2 + (userArray true self').2 = 2 ∧
      ArrayHolds (userArray false self') [⟨bytes "title", [], false⟩] ∧
      ArrayHolds (userArray true self') [⟨bytes "color", bytes "red", true⟩] := by
  have htexts : listedTexts LibxmlReader.blind.toXmlText draftMetadata =
      [⟨bytes "color", bytes "red", true⟩, ⟨bytes "title", [], false⟩] := rfl
  have hfits : ∀ texts ∈ listedTexts LibxmlReader.blind.toXmlText draftMetadata, texts.Fits := by
    intro texts hmem
    rw [htexts] at hmem
    rcases List.mem_cons.mp hmem with rfl | hmem
    · exact ⟨by decide, by decide⟩
    · obtain rfl := List.mem_singleton.mp hmem
      exact ⟨by decide, by decide⟩
  obtain ⟨self', hparse, -, -, -, -, -, hnew⟩ :=
    @usermeta_counted_and_filled _ LibxmlReader.blind_documented.content_nul .zero _ hfits
  obtain ⟨htotal, hheld⟩ := hnew fun listable => by cases listable <;> rfl
  exact ⟨self', hparse, htotal, hheld false, hheld true⟩

end Atmos
