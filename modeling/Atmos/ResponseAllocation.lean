import Atmos.BlockLedger
import Atmos.ResourceHandles

/-!
# The allocations of a response

Five classes of responses have arrays on the heap.  The filters allocate them, when an answer
is read, and write their pointers over what the response pointed to before; the functions
`…_destroy` free what the response points to in the end, or some of it.

* `allocEntries_accounts` — what the filters allocate for the entries of a listing;
* `allocate_cases` — what they allocate for an answer;
* `Remembers.step` — every block is pointed to or lost, and when none is left.
-/

namespace Atmos

open ByteText FixedMemory XmlTree AtmosUtil BlockLedger

/-! ## Entries of a listing -/

/-- The pointers of `AtmosObjectMetadata`, null for no block. -/
structure ObjectPointers where
  metadata : Option Nat
  listableMeta : Option Nat
  deriving DecidableEq, Repr

namespace ObjectPointers

/-- `AtmosObjectMetadata_init` -/
def null : ObjectPointers where
  metadata := none
  listableMeta := none

/-- The blocks an entry points to. -/
def blocks (self : ObjectPointers) : List Nat :=
  self.metadata.toList ++ self.listableMeta.toList

/-- The pointer of one kind. -/
def userArray (listable : Bool) (self : ObjectPointers) : Option Nat :=
  if listable then self.listableMeta else self.metadata

end ObjectPointers

/-- `calloc` for a number of elements, where there are any; else the pointer stays. -/
def callocFor (count : Nat) (pointer : Option Nat) (heap : Heap) : Option Nat × Heap :=
  if 0 < count then (some heap.alloc.1, heap.alloc.2) else (pointer, heap)

section Entries

variable (xml : XmlText)

/-- The pointers after `AtmosObjectMetadata_parse_usermeta`, given the children of the
element. -/
def allocUsermeta (children : List Node) (state : ObjectPointers × Heap) :
    ObjectPointers × Heap :=
  let counts := children.foldl (AtmosObjectMetadata.countChild xml) (0, 0)
  let metadata := callocFor counts.1 state.1.metadata state.2
  let listableMeta := callocFor counts.2 state.1.listableMeta metadata.2
  ({ metadata := metadata.1, listableMeta := listableMeta.1 }, listableMeta.2)

/-- One round of the loop over the children of an entry, in a directory or in a list of
objects: only user metadata is on the heap. -/
def allocChild (state : ObjectPointers × Heap) (child : Node) : ObjectPointers × Heap :=
  child.onElement state fun name children =>
    if name = dirNodeUserMetadataList then allocUsermeta xml children state else state

/-- A new entry, given the children of its element. -/
def allocEntry (children : List Node) (heap : Heap) : ObjectPointers × Heap :=
  children.foldl (allocChild xml) (.null, heap)

/-- The loop over the elements of a listing. -/
def allocEntries : List Node → Heap → List ObjectPointers × Heap
  | [], heap => ([], heap)
  | node :: nodes, heap =>
      let entry := allocEntry xml node.children heap
      let others := allocEntries nodes entry.2
      (entry.1 :: others.1, others.2)

/-- An element has a child that lists user metadata. -/
def listsMetadata (node : Node) : Bool :=
  node.children.any fun child =>
    (userTexts xml false child).isSome || (userTexts xml true child).isSome

end Entries

/-! ## Responses -/

/-- The pointers to the heap in a response: its array, what the entries in the array point
to, and the texts it points to. -/
structure ResponsePointers where
  array : Option Nat
  objects : List ObjectPointers
  tags : List Nat
  deriving DecidableEq, Repr

namespace ResponsePointers

/-- What the functions `…_init` leave. -/
def null : ResponsePointers where
  array := none
  objects := []
  tags := []

/-- The blocks a response points to. -/
def blocks (self : ResponsePointers) : List Nat :=
  self.array.toList ++ (self.objects.flatMap (·.blocks) ++ self.tags)

end ResponsePointers

/-- The classes of responses with an array on the heap. -/
def arrayFamilies : List Operation.Family :=
  [.objectInfo, .listDirectory, .listableTags, .listObjects, .listVersions]

/-- The blocks that the function `…_destroy` of a response frees, in their order.  The arrays
of an entry are not freed by `AtmosDirectoryEntry_destroy`, and not even this is called for
the entries of a list of objects; the class for versions has no free at all. -/
def Operation.Family.destroyed (family : Operation.Family) (self : ResponsePointers) : List Nat :=
  match family with
  | .objectInfo | .listDirectory | .listObjects => self.array.toList
  | .listableTags => self.array.elim [] fun array => self.tags ++ [array]
  | _ => []

/-- The elements an array is made for, in the document of an answer. -/
def Reply.arrayNodes (env : ReplyEnv) (reply : Reply) : Operation.Family → List Node
  | .objectInfo =>
      (reply.document env).elim [] fun doc =>
        selectNodes env.xml doc (bytes "//cos:replicas/cos:replica") true
  | .listDirectory =>
      reply.entryNodes env (bytes "//cos:DirectoryList") (bytes "//cos:DirectoryEntry")
  | .listObjects =>
      reply.entryNodes env (bytes "//cos:ListObjectsResponse") (bytes "//cos:Object")
  | .listVersions =>
      reply.entryNodes env (bytes "//cos:ListVersionsResponse") (bytes "//cos:Ver")
  | _ => []

/-- The entries of an array: those of directories and of lists of objects have pointers. -/
def Operation.Family.allocObjects (xml : XmlText) (family : Operation.Family)
    (nodes : List Node) (heap : Heap) : List ObjectPointers × Heap :=
  match family with
  | .listDirectory | .listObjects => allocEntries xml nodes heap
  | _ => ([], heap)

/-- Allocate an array for some elements, where there are any. -/
def Operation.Family.allocArray (xml : XmlText) (family : Operation.Family) (nodes : List Node)
    (state : ResponsePointers × Heap) : ResponsePointers × Heap :=
  if nodes = [] then state
  else
    let array := state.2.alloc
    let objects := family.allocObjects xml nodes array.2
    ({ array := some array.1, objects := objects.1, tags := [] }, objects.2)

/-- The array of `AtmosFilter_get_listable_tags`: its block, its size, and its texts. -/
structure TagPointers where
  array : Nat
  tagsAlloc : Nat
  tags : List Nat

/-- A full array is moved to a block with room for 100 more. -/
def TagPointers.reserve (state : TagPointers × Heap) : Option (TagPointers × Heap) :=
  if state.1.tagsAlloc < state.1.tags.length + 1 then
    (state.2.realloc state.1.array).map fun moved =>
      ({ state.1 with array := moved.1, tagsAlloc := state.1.tagsAlloc + 100 }, moved.2)
  else some state

/-- Store one more tag: the text is copied to a block of its own. -/
def TagPointers.store (state : TagPointers × Heap) : Option (TagPointers × Heap) :=
  (reserve state).map fun state =>
    ({ state.1 with tags := state.1.tags ++ [state.2.alloc.1] }, state.2.alloc.2)

/-- Store a number of tags in a new array. -/
def TagPointers.fill (heap : Heap) : Nat → Option (TagPointers × Heap)
  | 0 => some ({ array := heap.alloc.1, tagsAlloc := 100, tags := [] }, heap.alloc.2)
  | count + 1 => (fill heap count).bind store

/-- The pointers of a response after an answer. -/
def Reply.allocate (env : ReplyEnv) (reply : Reply) (family : Operation.Family)
    (state : ResponsePointers × Heap) : Option (ResponsePointers × Heap) :=
  if aboveSuccess reply.httpCode then some state
  else
    match family with
    | .listableTags =>
        let tag := (reply.getHeaderValue env atmosHeaderListableTags).getD []
        match scanTags env.curl (isUtf8 env.rest reply.headers) (tag.length + 1) tag [] with
        | .ok texts => (TagPointers.fill state.2 texts.length).map fun filled =>
            ({ array := some filled.1.array, objects := [], tags := filled.1.tags }, filled.2)
        | .error _ => none
    | family => some (family.allocArray env.xml.toXmlText (reply.arrayNodes env family) state)

/-! ## What is allocated for entries -/

theorem ObjectPointers.blocks_eq_nil_iff (self : ObjectPointers) :
    self.blocks = [] ↔ ∀ listable, self.userArray listable = none := by
  rw [blocks, List.append_eq_nil_iff, Option.toList_eq_nil_iff, Option.toList_eq_nil_iff]
  constructor
  · rintro ⟨hmetadata, hlistable⟩ listable
    cases listable with
    | false => exact hmetadata
    | true => exact hlistable
  · exact fun h => ⟨h false, h true⟩

section Entries

variable (xml : XmlText)

/-- The first loop over a list counts its texts. -/
theorem foldl_countChild (children : List Node) :
    children.foldl (AtmosObjectMetadata.countChild xml) (0, 0) =
      (((listedTexts xml children).filter (·.listable == false)).length,
        ((listedTexts xml children).filter (·.listable == true)).length) := by
  rw [foldl_items (AtmosObjectMetadata.countChild_eq xml), filterMap_usermetaItem_eq,
    AtmosObjectMetadata.foldl_countItem, Nat.zero_add, Nat.zero_add, List.filter_map,
    List.filter_map, List.length_map, List.length_map]
  congr 3
  · funext texts
    exact (beq_false _).symm
  · funext texts
    exact (beq_true _).symm

/-- A block is written over the pointer of the last one. -/
theorem callocFor_accounts {count : Nat} {pointer : Option Nat} {heap : Heap} {held : List Nat}
    (h : Accounts heap (pointer.toList ++ held)) :
    ∃ lost, Accounts (callocFor count pointer heap).2
      ((callocFor count pointer heap).1.toList ++ (lost ++ held)) := by
  unfold callocFor
  split
  · exact ⟨pointer.toList, h.alloc⟩
  · exact ⟨[], h⟩

theorem allocUsermeta_accounts (children : List Node) {self : ObjectPointers} {heap : Heap}
    {held : List Nat} (h : Accounts heap (self.blocks ++ held)) :
    ∃ lost, Accounts (allocUsermeta xml children (self, heap)).2
      ((allocUsermeta xml children (self, heap)).1.blocks ++ (lost ++ held)) := by
  rw [ObjectPointers.blocks, List.append_assoc] at h
  simp only [allocUsermeta]
  generalize children.foldl (AtmosObjectMetadata.countChild xml) (0, 0) = counts
  obtain ⟨lost, hmetadata⟩ := @callocFor_accounts counts.1 _ _ _ h
  generalize callocFor counts.1 self.metadata heap = metadata at hmetadata
  have hnext : Accounts metadata.2
      (self.listableMeta.toList ++ (metadata.1.toList ++ (lost ++ held))) :=
    hmetadata.perm (List.perm_iff_count.mpr fun block => by
      simp only [List.count_append]
      omega)
  obtain ⟨lost', hlistable⟩ := @callocFor_accounts counts.2 _ _ _ hnext
  refine ⟨lost ++ lost', hlistable.perm (List.perm_iff_count.mpr fun block => ?_)⟩
  simp only [ObjectPointers.blocks, List.count_append]
  omega

theorem allocChild_accounts (child : Node) {state : ObjectPointers × Heap} {held : List Nat}
    (h : Accounts state.2 (state.1.blocks ++ held)) :
    ∃ lost, Accounts (allocChild xml state child).2
      ((allocChild xml state child).1.blocks ++ (lost ++ held)) := by
  cases child with
  | element name children =>
      rw [allocChild, Node.onElement]
      split
      · exact allocUsermeta_accounts xml children h
      · exact ⟨[], h⟩
  | _ => exact ⟨[], h⟩

theorem foldl_allocChild_accounts (children : List Node) {state : ObjectPointers × Heap}
    {held : List Nat} (h : Accounts state.2 (state.1.blocks ++ held)) :
    ∃ lost, Accounts (children.foldl (allocChild xml) state).2
      ((children.foldl (allocChild xml) state).1.blocks ++ (lost ++ held)) := by
  induction children generalizing state held with
  | nil => exact ⟨[], h⟩
  | cons child children ih =>
      obtain ⟨lost, hchild⟩ := allocChild_accounts xml child h
      obtain ⟨lost', hrest⟩ := ih hchild
      rw [← List.append_assoc lost'] at hrest
      exact ⟨lost' ++ lost, hrest⟩

/-- **An entry** points to blocks, and may have lost others. -/
theorem allocEntry_accounts (children : List Node) {heap : Heap} {held : List Nat}
    (h : Accounts heap held) :
    ∃ lost, Accounts (allocEntry xml children heap).2
      ((allocEntry xml children heap).1.blocks ++ (lost ++ held)) :=
  @foldl_allocChild_accounts xml children (.null, heap) held h

/-- So do all entries of a listing. -/
theorem allocEntries_accounts (nodes : List Node) {heap : Heap} {held : List Nat}
    (h : Accounts heap held) :
    ∃ lost, Accounts (allocEntries xml nodes heap).2
      ((allocEntries xml nodes heap).1.flatMap (·.blocks) ++ (lost ++ held)) := by
  induction nodes generalizing heap held with
  | nil => exact ⟨[], h⟩
  | cons node nodes ih =>
      obtain ⟨lost, hentry⟩ := allocEntry_accounts xml node.children h
      obtain ⟨lost', hothers⟩ := ih hentry
      refine ⟨lost' ++ lost, hothers.perm (List.perm_iff_count.mpr fun block => ?_)⟩
      simp only [allocEntries, List.flatMap_cons, List.count_append]
      omega

/-! ### Which pointers are null -/

theorem isSome_callocFor (texts : List ListedText) (pointer : Option Nat) (heap : Heap) :
    (callocFor texts.length pointer heap).1.isSome =
      ((if texts = [] then none else some texts).isSome || pointer.isSome) := by
  cases texts with
  | nil => rfl
  | cons text texts => rfl

/-- A child writes the pointer of a kind if it lists texts of this kind. -/
theorem allocChild_userArray (state : ObjectPointers × Heap) (child : Node) (listable : Bool) :
    ((allocChild xml state child).1.userArray listable).isSome =
      ((userTexts xml listable child).isSome || (state.1.userArray listable).isSome) := by
  cases child with
  | element name children =>
      rw [allocChild, userTexts, Node.onElement, Node.onElement]
      split
      · simp only [allocUsermeta, foldl_countChild]
        cases listable with
        | false => exact isSome_callocFor _ _ _
        | true => exact isSome_callocFor _ _ _
      · rfl
  | _ => rfl

/-- The pointer of a kind after all children. -/
theorem allocEntry_userArray (children : List Node) (heap : Heap) (listable : Bool) :
    ((allocEntry xml children heap).1.userArray listable).isSome =
      children.any fun child => (userTexts xml listable child).isSome := by
  have hloop : ∀ state : ObjectPointers × Heap,
      ((children.foldl (allocChild xml) state).1.userArray listable).isSome =
        ((children.any fun child => (userTexts xml listable child).isSome) ||
          (state.1.userArray listable).isSome) := by
    induction children with
    | nil => exact fun state => (Bool.false_or _).symm
    | cons child children ih =>
        intro state
        rw [List.foldl_cons, ih, allocChild_userArray, List.any_cons, ← Bool.or_assoc,
          Bool.or_comm (List.any children _)]
  rw [allocEntry, hloop]
  cases listable <;> exact Bool.or_false _

/-- A child without user metadata allocates nothing. -/
theorem allocChild_of_none (state : ObjectPointers × Heap) {child : Node}
    (h : ∀ listable, userTexts xml listable child = none) : allocChild xml state child = state := by
  cases child with
  | element name children =>
      rw [allocChild, Node.onElement]
      split
      · rename_i hname
        have hnone : ∀ listable,
            (listedTexts xml children).filter (·.listable == listable) = [] := by
          intro listable
          have htexts := h listable
          rw [userTexts, Node.onElement, if_pos hname] at htexts
          by_contra hne
          simp [hne] at htexts
        simp only [allocUsermeta, foldl_countChild, hnone]
        rfl
      · rfl
  | _ => rfl

theorem blocks_allocEntry (children : List Node) (heap : Heap) :
    (allocEntry xml children heap).1.blocks = [] ↔
      ∀ child ∈ children, ∀ listable, userTexts xml listable child = none := by
  have hnone : ∀ listable, (allocEntry xml children heap).1.userArray listable = none ↔
      ∀ child ∈ children, userTexts xml listable child = none := by
    intro listable
    rw [← Option.isNone_iff_eq_none, ← Option.not_isSome, allocEntry_userArray]
    simp
  rw [ObjectPointers.blocks_eq_nil_iff, forall_congr' hnone]
  exact ⟨fun h child hchild listable => h listable child hchild,
    fun h listable child hchild => h child hchild listable⟩

theorem listsMetadata_eq_false {node : Node} :
    listsMetadata xml node = false ↔
      ∀ child ∈ node.children, ∀ listable, userTexts xml listable child = none := by
  simp [listsMetadata]

theorem allocEntry_of_none {children : List Node}
    (h : ∀ child ∈ children, ∀ listable, userTexts xml listable child = none) (heap : Heap) :
    allocEntry xml children heap = (.null, heap) := by
  unfold allocEntry
  induction children with
  | nil => rfl
  | cons child children ih =>
      obtain ⟨hchild, hrest⟩ := List.forall_mem_cons.mp h
      rw [List.foldl_cons, allocChild_of_none xml _ hchild]
      exact ih hrest

/-- Entries without user metadata allocate nothing. -/
theorem allocEntries_of_none {nodes : List Node}
    (h : ∀ node ∈ nodes, listsMetadata xml node = false) (heap : Heap) :
    (allocEntries xml nodes heap).2 = heap := by
  induction nodes with
  | nil => rfl
  | cons node nodes ih =>
      obtain ⟨hnode, hnodes⟩ := List.forall_mem_cons.mp h
      rw [allocEntries, allocEntry_of_none xml ((listsMetadata_eq_false xml).mp hnode)]
      exact ih hnodes

/-- **What entries point to**: nothing, exactly where there is no user metadata. -/
theorem blocks_allocEntries (nodes : List Node) (heap : Heap) :
    (allocEntries xml nodes heap).1.flatMap (·.blocks) = [] ↔
      ∀ node ∈ nodes, listsMetadata xml node = false := by
  induction nodes generalizing heap with
  | nil => simp [allocEntries]
  | cons node nodes ih =>
      rw [allocEntries, List.flatMap_cons, List.append_eq_nil_iff, ih, blocks_allocEntry,
        ← listsMetadata_eq_false, List.forall_mem_cons]

end Entries

/-! ## What is allocated for a response -/

namespace TagPointers

variable {state : TagPointers × Heap} {heap : Heap} {held : List Nat}

theorem reserve_accounts (h : Accounts state.2 (state.1.array :: (state.1.tags ++ held))) :
    ∃ moved, reserve state = some moved ∧
      Accounts moved.2 (moved.1.array :: (moved.1.tags ++ held)) ∧
      moved.1.tags = state.1.tags := by
  unfold reserve
  split
  · obtain ⟨block, next, hnext, haccounts⟩ := h.realloc
    rw [hnext]
    exact ⟨_, rfl, haccounts, rfl⟩
  · exact ⟨state, rfl, h, rfl⟩

theorem store_accounts (h : Accounts state.2 (state.1.array :: (state.1.tags ++ held))) :
    ∃ stored, store state = some stored ∧
      Accounts stored.2 (stored.1.array :: (stored.1.tags ++ held)) ∧
      stored.1.tags.length = state.1.tags.length + 1 := by
  obtain ⟨moved, hmoved, haccounts, htags⟩ := reserve_accounts h
  rw [store, hmoved]
  refine ⟨_, rfl, haccounts.alloc.perm (List.perm_iff_count.mpr fun block => ?_), ?_⟩
  · simp only [List.count_cons, List.count_append, List.count_nil]
    omega
  · rw [List.length_append, htags]
    rfl

/-- **An array of tags** can be filled; it is moved whenever it is full. -/
theorem fill_accounts (h : Accounts heap held) (count : Nat) :
    ∃ filled, fill heap count = some filled ∧
      Accounts filled.2 (filled.1.array :: (filled.1.tags ++ held)) ∧
      filled.1.tags.length = count := by
  induction count with
  | zero => exact ⟨_, rfl, h.alloc, rfl⟩
  | succ count ih =>
      obtain ⟨state, hstate, haccounts, hlength⟩ := ih
      obtain ⟨stored, hstored, haccounts, htags⟩ := store_accounts haccounts
      refine ⟨stored, ?_, haccounts, htags.trans (by rw [hlength])⟩
      rw [fill, hstate]
      exact hstored

end TagPointers

namespace Operation.Family

/-- The blocks a response points to that its function `…_destroy` leaves. -/
def kept (family : Operation.Family) (self : ResponsePointers) : List Nat :=
  match family with
  | .objectInfo | .listDirectory | .listObjects | .listableTags =>
      self.objects.flatMap (·.blocks)
  | _ => self.blocks

end Operation.Family

namespace ResponsePointers

/-- The pointers that responses of a family have. -/
structure Fits (family : Operation.Family) (pointers : ResponsePointers) : Prop where
  tags : family ≠ .listableTags → pointers.tags = []
  null : pointers.array = none → pointers = .null

theorem null_fits (family : Operation.Family) : Fits family .null where
  tags _ := rfl
  null _ := rfl

/-- Some of the blocks are freed, the others left. -/
theorem blocks_perm {family : Operation.Family} {self : ResponsePointers}
    (hfits : self.Fits family) :
    self.blocks.Perm (family.destroyed self ++ family.kept self) := by
  cases family with
  | objectInfo | listDirectory | listObjects =>
      have htags := hfits.tags (by decide)
      rw [blocks, htags, List.append_nil]
      exact .refl _
  | listableTags =>
      cases harray : self.array with
      | none =>
          rw [hfits.null harray]
          exact .refl _
      | some array =>
          apply List.perm_iff_count.mpr
          intro block
          simp only [blocks, Operation.Family.destroyed, Operation.Family.kept, harray,
            Option.toList_some, Option.elim_some, List.count_append]
          omega
  | _ => exact .refl _

end ResponsePointers

/-- An answer for which a response gets a new array. -/
def Reply.allocates (env : ReplyEnv) (reply : Reply) (family : Operation.Family) : Bool :=
  !aboveSuccess reply.httpCode &&
    (family = .listableTags || !(reply.arrayNodes env family).isEmpty)

/-- An answer all of whose blocks are freed with the response: it lists no versions, and no
user metadata. -/
def Reply.isFreed (env : ReplyEnv) (reply : Reply) (family : Operation.Family) : Bool :=
  match family with
  | .listVersions => false
  | .listDirectory | .listObjects =>
      (reply.arrayNodes env family).all fun node => !listsMetadata env.xml.toXmlText node
  | _ => true

section Steps

variable {env : ReplyEnv} {family : Operation.Family} {reply : Reply}
  {state state' : ResponsePointers × Heap}

/-- Entries that point to nothing have lost nothing. -/
theorem allocEntries_lost (xml : XmlText) (nodes : List Node) {heap : Heap} {held : List Nat}
    (h : Accounts heap held) :
    ∃ lost, Accounts (allocEntries xml nodes heap).2
        ((allocEntries xml nodes heap).1.flatMap (·.blocks) ++ (lost ++ held)) ∧
      ((allocEntries xml nodes heap).1.flatMap (·.blocks) ++ lost = [] ↔
        ∀ node ∈ nodes, listsMetadata xml node = false) := by
  have hblocks := blocks_allocEntries xml nodes heap
  by_cases hnone : ∀ node ∈ nodes, listsMetadata xml node = false
  · refine ⟨[], ?_, ?_⟩
    · rw [hblocks.mpr hnone, allocEntries_of_none xml hnone]
      exact h
    · rw [List.append_nil, hblocks]
  · obtain ⟨lost, haccounts⟩ := allocEntries_accounts xml nodes h
    refine ⟨lost, haccounts, ?_⟩
    rw [List.append_eq_nil_iff, hblocks]
    exact ⟨And.left, fun h => absurd h hnone⟩

/-- **A new array** and what its entries point to. -/
theorem allocArray_accounts (hfamily : family ∈ arrayFamilies) (htags : family ≠ .listableTags)
    {nodes : List Node} (hnodes : nodes = reply.arrayNodes env family) (hne : nodes ≠ [])
    (hnext : family.allocArray env.xml.toXmlText nodes state = state') :
    state'.1.Fits family ∧ state'.1.array ≠ none ∧
      ∀ held, Accounts state.2 held →
        ∃ lost, Accounts state'.2 (state'.1.blocks ++ (lost ++ held)) ∧
          (family.kept state'.1 ++ lost = [] ↔ reply.isFreed env family = true) := by
  rw [Operation.Family.allocArray, if_neg hne] at hnext
  subst hnext
  refine ⟨⟨fun _ => rfl, fun h => nomatch h⟩, Option.some_ne_none _, fun held h => ?_⟩
  have hentries : ∃ lost, Accounts (allocEntries env.xml.toXmlText nodes state.2.alloc.2).2
        (state.2.alloc.1 ::
          ((allocEntries env.xml.toXmlText nodes state.2.alloc.2).1.flatMap (·.blocks) ++
            (lost ++ held))) ∧
      ((allocEntries env.xml.toXmlText nodes state.2.alloc.2).1.flatMap (·.blocks) ++ lost = [] ↔
        ∀ node ∈ nodes, listsMetadata env.xml.toXmlText node = false) := by
    obtain ⟨lost, haccounts, hlost⟩ := allocEntries_lost env.xml.toXmlText nodes h.alloc
    refine ⟨lost, haccounts.perm (List.perm_iff_count.mpr fun block => ?_), hlost⟩
    simp only [List.count_append, List.count_cons]
    omega
  simp only [arrayFamilies, List.mem_cons, List.not_mem_nil, or_false] at hfamily
  rcases hfamily with rfl | rfl | rfl | rfl | rfl
  · exact ⟨[], h.alloc, by simp [Operation.Family.kept, Operation.Family.allocObjects,
      Reply.isFreed]⟩
  · obtain ⟨lost, haccounts, hlost⟩ := hentries
    refine ⟨lost, ?_, hlost.trans (by simp [Reply.isFreed, hnodes])⟩
    simpa [ResponsePointers.blocks, Operation.Family.allocObjects] using haccounts
  · exact absurd rfl htags
  · obtain ⟨lost, haccounts, hlost⟩ := hentries
    refine ⟨lost, ?_, hlost.trans (by simp [Reply.isFreed, hnodes])⟩
    simpa [ResponsePointers.blocks, Operation.Family.allocObjects] using haccounts
  · exact ⟨[], h.alloc, by simp [Operation.Family.kept, ResponsePointers.blocks,
      Reply.isFreed]⟩

theorem allocate_of_array (hcode : aboveSuccess reply.httpCode = false)
    (htags : family ≠ .listableTags) :
    reply.allocate env family state =
      some (family.allocArray env.xml.toXmlText (reply.arrayNodes env family) state) := by
  unfold Reply.allocate
  rw [if_neg (Bool.eq_false_iff.mp hcode)]
  cases family with
  | listableTags => exact absurd rfl htags
  | _ => rfl

/-- **What an answer does to the pointers**: nothing, or they all are written over. -/
theorem allocate_cases (hfamily : family ∈ arrayFamilies)
    (h : reply.allocate env family state = some state') :
    reply.allocates env family = false ∧ state' = state ∨
      reply.allocates env family = true ∧ state'.1.Fits family ∧ state'.1.array ≠ none ∧
        ∀ held, Accounts state.2 held →
          ∃ lost, Accounts state'.2 (state'.1.blocks ++ (lost ++ held)) ∧
            (family.kept state'.1 ++ lost = [] ↔ reply.isFreed env family = true) := by
  cases hcode : aboveSuccess reply.httpCode with
  | true =>
      unfold Reply.allocate at h
      rw [if_pos hcode] at h
      exact .inl ⟨by rw [Reply.allocates, hcode]; rfl, (Option.some.inj h).symm⟩
  | false =>
      by_cases htags : family = .listableTags
      · subst htags
        right
        unfold Reply.allocate at h
        rw [if_neg (Bool.eq_false_iff.mp hcode)] at h
        dsimp only at h
        split at h
        · rename_i texts _
          obtain ⟨filled, hfilled, rfl⟩ := Option.map_eq_some_iff.mp h
          refine ⟨by rw [Reply.allocates, hcode]; rfl, ⟨fun hne => absurd rfl hne,
            fun h => nomatch h⟩, Option.some_ne_none _, fun held hheld => ⟨[], ?_, ?_⟩⟩
          · obtain ⟨_, hfilled', haccounts, -⟩ := TagPointers.fill_accounts hheld texts.length
            obtain rfl := Option.some.inj (hfilled.symm.trans hfilled')
            exact haccounts
          · simp [Operation.Family.kept, Reply.isFreed]
        · cases h
      · have harray := Option.some.inj ((allocate_of_array hcode htags).symm.trans h)
        have hallocates : reply.allocates env family =
            !(reply.arrayNodes env family).isEmpty := by
          simp [Reply.allocates, hcode, htags]
        by_cases hnil : reply.arrayNodes env family = []
        · left
          rw [Operation.Family.allocArray, if_pos hnil] at harray
          exact ⟨by rw [hallocates, hnil]; rfl, harray.symm⟩
        · right
          exact ⟨by simp [hallocates, hnil], allocArray_accounts hfamily htags rfl hnil harray⟩

/-- All blocks are freed in the end: at most one answer had an array, and a class or content
for which no block is forgotten. -/
structure FreesAll (env : ReplyEnv) (family : Operation.Family) (replies : List Reply) : Prop where
  once : (replies.filter (·.allocates env family)).length ≤ 1
  freed : ∀ reply ∈ replies, reply.allocates env family = true →
    reply.isFreed env family = true

/-- The state of a response after some answers.  The invariant: its blocks and the lost ones
are what is held, and the lost ones are known to be none. -/
structure Remembers (env : ReplyEnv) (family : Operation.Family) (replies : List Reply)
    (state : ResponsePointers × Heap) (lost : List Nat) : Prop where
  accounts : Accounts state.2 (state.1.blocks ++ lost)
  fits : state.1.Fits family
  array : state.1.array = none ↔ ∀ reply ∈ replies, reply.allocates env family = false
  unused : state.1.array = none → lost = []
  freed : family.kept state.1 ++ lost = [] ↔ FreesAll env family replies

theorem freesAll_append_of_not {replies : List Reply} (h : reply.allocates env family = false) :
    FreesAll env family (replies ++ [reply]) ↔ FreesAll env family replies := by
  have hfilter : (replies ++ [reply]).filter (·.allocates env family) =
      replies.filter (·.allocates env family) := by
    simp [List.filter_append, h]
  constructor
  · rintro ⟨honce, hfreed⟩
    exact ⟨hfilter ▸ honce, fun r hr => hfreed r (List.mem_append_left _ hr)⟩
  · rintro ⟨honce, hfreed⟩
    refine ⟨hfilter.symm ▸ honce, fun r hr hallocates => ?_⟩
    rcases List.mem_append.mp hr with hr | hr
    · exact hfreed r hr hallocates
    · rw [List.mem_singleton.mp hr, h] at hallocates
      cases hallocates

/-- With one more array, all blocks are freed if it is the first and its blocks are. -/
theorem freesAll_append {replies : List Reply} (h : reply.allocates env family = true) :
    FreesAll env family (replies ++ [reply]) ↔
      (∀ r ∈ replies, r.allocates env family = false) ∧ reply.isFreed env family = true := by
  have hfilter : ((replies ++ [reply]).filter (·.allocates env family)).length =
      (replies.filter (·.allocates env family)).length + 1 := by
    simp [List.filter_append, h]
  have hnone : (replies.filter (·.allocates env family)).length = 0 ↔
      ∀ r ∈ replies, r.allocates env family = false := by
    rw [List.length_eq_zero_iff, List.filter_eq_nil_iff]
    simp
  constructor
  · rintro ⟨honce, hfreed⟩
    exact ⟨hnone.mp (by omega), hfreed reply List.mem_concat_self h⟩
  · rintro ⟨hunused, hfreed⟩
    refine ⟨by rw [hfilter, hnone.mpr hunused], fun r hr hallocates => ?_⟩
    rcases List.mem_append.mp hr with hr | hr
    · rw [hunused r hr] at hallocates
      cases hallocates
    · rwa [List.mem_singleton.mp hr]

theorem remembers_init (env : ReplyEnv) (hfamily : family ∈ arrayFamilies) :
    Remembers env family [] (.null, .empty) [] where
  accounts := .empty
  fits := ResponsePointers.null_fits family
  array := by simp [ResponsePointers.null]
  unused _ := rfl
  freed := by
    have hkept : family.kept .null = [] := by
      simp only [arrayFamilies, List.mem_cons, List.not_mem_nil, or_false] at hfamily
      rcases hfamily with rfl | rfl | rfl | rfl | rfl <;> rfl
    rw [hkept]
    exact ⟨fun _ => ⟨Nat.zero_le _, fun r hr => absurd hr List.not_mem_nil⟩, fun _ => rfl⟩

/-- **One more answer.** -/
theorem Remembers.step {replies : List Reply} {lost : List Nat}
    (h : Remembers env family replies state lost) (hfamily : family ∈ arrayFamilies)
    (hnext : reply.allocate env family state = some state') :
    ∃ lost', Remembers env family (replies ++ [reply]) state' lost' := by
  rcases allocate_cases hfamily hnext with ⟨hnone, rfl⟩ | ⟨hsome, hfits, harray, haccounts⟩
  · refine ⟨lost, h.accounts, h.fits, ?_, h.unused, h.freed.trans ?_⟩
    · rw [h.array, List.forall_mem_append]
      simp [hnone]
    · exact (freesAll_append_of_not hnone).symm
  · obtain ⟨lost', hheld, hfreed⟩ := haccounts _ h.accounts
    have hblocks : state.1.blocks = [] ↔ state.1.array = none := by
      constructor
      · intro hnil
        exact Option.toList_eq_nil_iff.mp (List.append_eq_nil_iff.mp hnil).1
      · intro hnull
        rw [h.fits.null hnull]
        rfl
    refine ⟨lost' ++ (state.1.blocks ++ lost), hheld, hfits, ?_, fun hnull =>
      absurd hnull harray, ?_⟩
    · refine ⟨fun hnull => absurd hnull harray, fun hall => ?_⟩
      rw [hall reply List.mem_concat_self] at hsome
      cases hsome
    · rw [freesAll_append hsome, ← h.array, ← hfreed, ← List.append_assoc,
        List.append_eq_nil_iff, List.append_eq_nil_iff, List.append_eq_nil_iff, hblocks]
      exact ⟨fun ⟨hkept, hnull, _⟩ => ⟨hnull, hkept⟩,
        fun ⟨hnull, hkept⟩ => ⟨hkept, hnull, h.unused hnull⟩⟩

end Steps

end Atmos
