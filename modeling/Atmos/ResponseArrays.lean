import Atmos.AclHeaders
import Atmos.FilledArrays

/-!
# The arrays of a response

A response object has an array for metadata, one for listable metadata and one
for access control entries.  The readers fill them with what the server sends
and never look at their sizes.

* `parseResponse_eq_rounds` — the readers are one loop over the pieces of four
  headers, which stores into three arrays;
* `response_arrays_iff` — the loop stays within the arrays exactly when the
  pieces are few enough.
-/

namespace Atmos

open ByteText FixedMemory FilledArrays AtmosUtil

/-! ## The arrays -/

/-- The arrays of a response. -/
inductive ResponseArray where
  | metadata
  | listableMeta
  | acl
  deriving DecidableEq, Repr

namespace ResponseArray

/-- The slots of an array. -/
def Slot : ResponseArray → Type
  | metadata | listableMeta => MetadataSlot
  | acl => AclSlot

/-- The size of an array. -/
def capacity : ResponseArray → Nat
  | metadata | listableMeta => atmosMetaCountMax
  | acl => atmosAclCountMax

end ResponseArray

/-- The arrays of `AtmosReadObjectResponse`, with their counts. -/
structure ResponseArrays where
  metadata : MetadataArray
  listableMeta : MetadataArray
  acl : AclArray

namespace ResponseArrays

/-- The arrays as a family. -/
def family (self : ResponseArrays) : Arrays ResponseArray.Slot
  | .metadata => self.metadata
  | .listableMeta => self.listableMeta
  | .acl => self.acl

/-- Arrays of the sizes in the response object, with zero counts. -/
structure Fresh (arrays : ResponseArrays) : Prop where
  empty : ∀ i, (arrays.family i).2 = 0
  size : ∀ i, (arrays.family i).1.length = i.capacity

/-- The part of `AtmosFilter_parse_read_object_response` that fills the
arrays. -/
def parse (rest : RestClient) (curl : Curl) (headers : List CStr) (self : ResponseArrays) :
    Option ResponseArrays := do
  let (metadata, listableMeta) ←
    parseUserMetaHeaders rest curl headers self.metadata self.listableMeta
  let acl ← parseAclHeaders rest headers self.acl
  some { metadata, listableMeta, acl }

end ResponseArrays

/-! ## Rounds -/

/-- The headers that are read into the arrays. -/
inductive ResponseHeader where
  | metadata
  | listableMeta
  | userAcl
  | groupAcl
  deriving DecidableEq, Repr

namespace ResponseHeader

def name : ResponseHeader → CStr
  | metadata => atmosHeaderMeta
  | listableMeta => atmosHeaderListableMeta
  | userAcl => atmosHeaderUserAcl
  | groupAcl => atmosHeaderGroupAcl

/-- Both ACL headers fill one array. -/
def array : ResponseHeader → ResponseArray
  | metadata => .metadata
  | listableMeta => .listableMeta
  | userAcl | groupAcl => .acl

/-- Whether a piece fits the scratch buffers of the header's reader. -/
def Fits : ResponseHeader → CStr → Bool → Prop
  | metadata | listableMeta => MetaFieldFits
  | userAcl | groupAcl => AclFieldFits

/-- Whether the reader stores a piece: system metadata is skipped. -/
def stores : ResponseHeader → CStr → Bool
  | metadata | listableMeta => fun field => !isSystemMetaName (entryName field)
  | userAcl | groupAcl => fun _ => true

instance : ∀ (header : ResponseHeader) (field : CStr) (last : Bool),
    Decidable (header.Fits field last)
  | metadata, field, last | listableMeta, field, last =>
      inferInstanceAs (Decidable (MetaFieldFits field last))
  | userAcl, field, last | groupAcl, field, last =>
      inferInstanceAs (Decidable (AclFieldFits field last))

end ResponseHeader

/-- A round of one of the readers: a piece of a header, and whether it is the
last one. -/
structure ResponseRound where
  header : ResponseHeader
  field : CStr
  last : Bool
  deriving DecidableEq, Repr

/-- The rounds for the pieces of a header. -/
def fieldRounds (header : ResponseHeader) : List CStr → List ResponseRound
  | [] => []
  | field :: fields => ⟨header, field, fields.isEmpty⟩ :: fieldRounds header fields

/-- The rounds for a response, in their order. -/
def responseRounds (rest : RestClient) (headers : List CStr) : List ResponseRound :=
  [ResponseHeader.metadata, .listableMeta, .userAcl, .groupAcl].flatMap fun header =>
    fieldRounds header (metaFields rest headers header.name)

/-- Store an entry of metadata. -/
def storeMetadataEntry (curl : Curl) (utf8 : Bool) (p : CStr × CStr) :
    Store ResponseArray.Slot where
  array := .metadata
  put := fun slot : MetadataSlot => some (storeEntry curl utf8 p slot)

/-- Store an entry of listable metadata. -/
def storeListableEntry (curl : Curl) (utf8 : Bool) (p : CStr × CStr) :
    Store ResponseArray.Slot where
  array := .listableMeta
  put := fun slot : MetadataSlot => some (storeEntry curl utf8 p slot)

/-- Store an access control entry. -/
def storeAclItem (item : AclItem) : Store ResponseArray.Slot where
  array := .acl
  put := fun slot : AclSlot => some (storeAcl item slot)

/-- Read the piece of a round of a metadata header. -/
def readMetadata (store : CStr × CStr → Store ResponseArray.Slot) (field : CStr) (last : Bool) :
    Option (Option (Store ResponseArray.Slot)) :=
  (metaPiece field last).map fun ps => ps.head?.map store

/-- Read the piece of a round of an ACL header. -/
def readAcl (type : AclPrincipalType) (field : CStr) (last : Bool) :
    Option (Option (Store ResponseArray.Slot)) :=
  (aclPiece type field last).map fun items => items.head?.map storeAclItem

/-- Read the piece of a round. -/
def readRound (curl : Curl) (utf8 : Bool) :
    ResponseRound → Option (Option (Store ResponseArray.Slot))
  | ⟨.metadata, field, last⟩ => readMetadata (storeMetadataEntry curl utf8) field last
  | ⟨.listableMeta, field, last⟩ => readMetadata (storeListableEntry curl utf8) field last
  | ⟨.userAcl, field, last⟩ => readAcl .user field last
  | ⟨.groupAcl, field, last⟩ => readAcl .group field last

/-! ## The readers as one loop -/

/-- If every round does what a step of a reader does, all rounds do what the
reader does. -/
theorem foldlM_fieldRounds {τ : Type} {step : τ → CStr → Bool → Option τ}
    {state : τ → ResponseArrays} {curl : Curl} {utf8 : Bool} {header : ResponseHeader}
    (hround : ∀ st field last,
      storeRound (readRound curl utf8) (state st).family ⟨header, field, last⟩ =
        (step st field last).map fun st' => (state st').family)
    (fields : List CStr) (st : τ) :
    (fieldRounds header fields).foldlM (storeRound (readRound curl utf8)) (state st).family =
      (foldFields step fields st).map fun st' => (state st').family := by
  induction fields generalizing st with
  | nil => rfl
  | cons field fields ih =>
      rw [fieldRounds, List.foldlM_cons, hround, foldFields_cons]
      cases step st field fields.isEmpty with
      | none => rfl
      | some st' => exact ih st'

/-- A round that stores what it reads, at most one item, in an array. -/
theorem round_eq_map {π : Type} {read : ResponseRound → Option (Option (Store _))}
    {r : ResponseRound} {piece : Option (List π)} {i : ResponseArray}
    {put : π → i.Slot → i.Slot} {arrays : Arrays ResponseArray.Slot}
    (hread : read r = piece.map fun ps => ps.head?.map fun p => ⟨i, fun slot => some (put p slot)⟩)
    (hpiece : ∀ ps, piece = some ps → ps = [] ∨ ∃ p, ps = [p]) :
    storeRound read arrays r = (piece.bind fun ps => ps.foldlM (appendSlot put) (arrays i)).map
      (Function.update arrays i) := by
  rw [storeRound, hread]
  cases piece with
  | none => rfl
  | some ps =>
      rcases hpiece ps rfl with rfl | ⟨p, rfl⟩
      · exact congrArg some (Function.update_eq_self i arrays).symm
      · have hrun := Store.run_eq_update i put p arrays
        rw [Option.bind_some, List.foldlM_cons]
        refine hrun.trans ?_
        cases appendSlot put (arrays i) p <;> rfl

theorem metaPiece_length {field : CStr} {last : Bool} {ps : List (CStr × CStr)}
    (h : metaPiece field last = some ps) : ps = [] ∨ ∃ p, ps = [p] := by
  obtain ⟨-, rfl⟩ := (metaPiece_eq_some field last ps).mp h
  unfold metaEntries
  split
  · exact Or.inl rfl
  · exact Or.inr ⟨_, rfl⟩

theorem aclPiece_length {type : AclPrincipalType} {field : CStr} {last : Bool}
    {items : List AclItem} (h : aclPiece type field last = some items) :
    items = [] ∨ ∃ item, items = [item] := by
  obtain ⟨-, rfl⟩ := (aclPiece_eq_some type field last items).mp h
  exact Or.inr ⟨_, rfl⟩

namespace ResponseArrays

variable (curl : Curl) (utf8 : Bool) (self : ResponseArrays)

theorem update_metadata (array : MetadataArray) :
    Function.update self.family .metadata array = { self with metadata := array }.family := by
  funext i
  cases i <;> rfl

theorem update_listableMeta (array : MetadataArray) :
    Function.update self.family .listableMeta array =
      { self with listableMeta := array }.family := by
  funext i
  cases i <;> rfl

theorem update_acl (array : AclArray) :
    Function.update self.family .acl array = { self with acl := array }.family := by
  funext i
  cases i <;> rfl

/-- **The rounds of a reader** do what the reader does. -/
theorem rounds_metadata (fields : List CStr) :
    (fieldRounds .metadata fields).foldlM (storeRound (readRound curl utf8)) self.family =
      (foldFields (parseMetaField curl utf8) fields self.metadata).map
        fun array => { self with metadata := array }.family := by
  refine @foldlM_fieldRounds _ _ (fun array => { self with metadata := array }) curl utf8
    .metadata ?_ fields self.metadata
  intro array field last
  rw [parseMetaField_eq]
  refine (@round_eq_map _ _ _ (metaPiece field last) .metadata (storeEntry curl utf8) _ rfl
    fun ps => metaPiece_length).trans ?_
  congr 1
  funext array'
  exact update_metadata _ array'

theorem rounds_listableMeta (fields : List CStr) :
    (fieldRounds .listableMeta fields).foldlM (storeRound (readRound curl utf8)) self.family =
      (foldFields (parseMetaField curl utf8) fields self.listableMeta).map
        fun array => { self with listableMeta := array }.family := by
  refine @foldlM_fieldRounds _ _ (fun array => { self with listableMeta := array }) curl utf8
    .listableMeta ?_ fields self.listableMeta
  intro array field last
  rw [parseMetaField_eq]
  refine (@round_eq_map _ _ _ (metaPiece field last) .listableMeta (storeEntry curl utf8) _ rfl
    fun ps => metaPiece_length).trans ?_
  congr 1
  funext array'
  exact update_listableMeta _ array'

theorem rounds_acl {header : ResponseHeader} {type : AclPrincipalType}
    (hread : ∀ field last, readRound curl utf8 ⟨header, field, last⟩ = readAcl type field last)
    (fields : List CStr) :
    (fieldRounds header fields).foldlM (storeRound (readRound curl utf8)) self.family =
      (foldFields (parseAclField type) fields self.acl).map
        fun array => { self with acl := array }.family := by
  refine @foldlM_fieldRounds _ _ (fun array => { self with acl := array }) curl utf8
    header ?_ fields self.acl
  intro array field last
  rw [parseAclField_eq]
  refine (@round_eq_map _ _ _ (aclPiece type field last) .acl storeAcl _ (hread field last)
    fun ps => aclPiece_length).trans ?_
  congr 1
  funext array'
  exact update_acl _ array'

end ResponseArrays

theorem parseMetaHeader_eq_fields (rest : RestClient) (curl : Curl) (headers : List CStr)
    (name : CStr) (array : MetadataArray) :
    parseMetaHeader rest curl headers name array =
      foldFields (parseMetaField curl (isUtf8 rest headers)) (metaFields rest headers name)
        array := by
  rw [parseMetaHeader, metaFields]
  cases rest.getHeaderValue headers name with
  | none => rfl
  | some value => exact scanFields_eq_foldFields comma _ value array

theorem parseAclHeader_eq_fields (rest : RestClient) (headers : List CStr) (name : CStr)
    (type : AclPrincipalType) (array : AclArray) :
    parseAclHeader rest headers name type array =
      foldFields (parseAclField type) (metaFields rest headers name) array := by
  rw [parseAclHeader, metaFields]
  cases rest.getHeaderValue headers name with
  | none => rfl
  | some value => exact scanFields_eq_foldFields comma _ value array

/-- **The readers are one loop** over the rounds of the response. -/
theorem parseResponse_eq_rounds (rest : RestClient) (curl : Curl) (headers : List CStr)
    (self : ResponseArrays) :
    (responseRounds rest headers).foldlM (storeRound (readRound curl (isUtf8 rest headers)))
        self.family =
      (self.parse rest curl headers).map ResponseArrays.family := by
  have hrounds : responseRounds rest headers =
      fieldRounds .metadata (metaFields rest headers atmosHeaderMeta) ++
      (fieldRounds .listableMeta (metaFields rest headers atmosHeaderListableMeta) ++
      (fieldRounds .userAcl (metaFields rest headers atmosHeaderUserAcl) ++
      fieldRounds .groupAcl (metaFields rest headers atmosHeaderGroupAcl))) := by
    rw [← List.append_nil (fieldRounds .groupAcl _)]
    rfl
  unfold ResponseArrays.parse parseUserMetaHeaders parseAclHeaders
  rw [hrounds, List.foldlM_append, ResponseArrays.rounds_metadata]
  simp only [parseMetaHeader_eq_fields, parseAclHeader_eq_fields]
  cases foldFields (parseMetaField curl (isUtf8 rest headers))
    (metaFields rest headers atmosHeaderMeta) self.metadata with
  | none => rfl
  | some metadata =>
      rw [Option.map_some, Option.bind_eq_bind, Option.bind_some, List.foldlM_append,
        ResponseArrays.rounds_listableMeta]
      dsimp only
      cases foldFields (parseMetaField curl (isUtf8 rest headers))
        (metaFields rest headers atmosHeaderListableMeta) self.listableMeta with
      | none => rfl
      | some listableMeta =>
          rw [Option.map_some, Option.bind_eq_bind, Option.bind_some, List.foldlM_append,
            ResponseArrays.rounds_acl _ _ _ (fun _ _ => rfl)]
          dsimp only
          cases foldFields (parseAclField .user)
            (metaFields rest headers atmosHeaderUserAcl) self.acl with
          | none => rfl
          | some acl =>
              rw [Option.map_some, Option.bind_eq_bind, Option.bind_some,
                ResponseArrays.rounds_acl _ _ _ (fun _ _ => rfl)]
              simp only [Option.bind_eq_bind, Option.bind_some]
              cases foldFields (parseAclField .group)
                (metaFields rest headers atmosHeaderGroupAcl) acl <;> rfl

/-! ## Bounds -/

/-- Reading a piece succeeds exactly when it fits. -/
theorem readRound_isSome (curl : Curl) (utf8 : Bool) (r : ResponseRound) :
    (readRound curl utf8 r).isSome = true ↔ r.header.Fits r.field r.last := by
  have hmeta : ∀ store, (readMetadata store r.field r.last).isSome = true ↔
      MetaFieldFits r.field r.last := by
    intro store
    rw [readMetadata, Option.isSome_map, Option.isSome_iff_exists]
    simp [metaPiece_eq_some]
  have hacl : ∀ type, (readAcl type r.field r.last).isSome = true ↔
      AclFieldFits r.field r.last := by
    intro type
    rw [readAcl, Option.isSome_map, Option.isSome_iff_exists]
    simp [aclPiece_eq_some]
  obtain ⟨header, field, last⟩ := r
  cases header with
  | metadata | listableMeta => exact hmeta _
  | userAcl | groupAcl => exact hacl _

/-- The items the readers store go into their slots. -/
theorem put_isSome {curl : Curl} {utf8 : Bool} (r : ResponseRound)
    (s : Store ResponseArray.Slot) (hread : readRound curl utf8 r = some (some s))
    (slot : s.array.Slot) : (s.put slot).isSome = true := by
  have hmeta : ∀ {store : CStr × CStr → Store ResponseArray.Slot},
      (∀ p slot, ((store p).put slot).isSome = true) →
      readMetadata store r.field r.last = some (some s) → (s.put slot).isSome = true := by
    intro store hstore h
    obtain ⟨ps, -, hps⟩ := Option.map_eq_some_iff.mp h
    obtain ⟨p, -, rfl⟩ := Option.map_eq_some_iff.mp hps
    exact hstore p slot
  have hacl : ∀ {type}, readAcl type r.field r.last = some (some s) →
      (s.put slot).isSome = true := by
    intro type h
    obtain ⟨items, -, hitems⟩ := Option.map_eq_some_iff.mp h
    obtain ⟨item, -, rfl⟩ := Option.map_eq_some_iff.mp hitems
    rfl
  obtain ⟨header, field, last⟩ := r
  cases header with
  | metadata | listableMeta => exact hmeta (fun _ _ => rfl) hread
  | userAcl | groupAcl => exact hacl hread

theorem ResponseArrays.Fresh.fits {arrays : ResponseArrays} (h : arrays.Fresh) :
    FilledArrays.Fits arrays.family := by
  intro i
  rw [h.empty i]
  exact Nat.zero_le _

/-- The rounds before the first one that overflows a scratch buffer. -/
def reachedRounds (rounds : List ResponseRound) : List ResponseRound :=
  rounds.takeWhile fun r => r.header.Fits r.field r.last

/-- The number of pieces that are stored in an array. -/
def storedPieces (rounds : List ResponseRound) (i : ResponseArray) : Nat :=
  rounds.countP fun r => r.header.array = i ∧ r.header.stores r.field

theorem join_readRound {curl : Curl} {utf8 : Bool} {r : ResponseRound} {i : ResponseArray}
    (hfits : r.header.Fits r.field r.last) :
    (readRound curl utf8 r).join.map Store.array = some i ↔
      r.header.array = i ∧ r.header.stores r.field = true := by
  have hmeta : MetaFieldFits r.field r.last → ∀ store,
      (readMetadata store r.field r.last).join =
        if isSystemMetaName (entryName r.field) then none
        else some (store (entryName r.field, entryValue r.field)) := by
    intro h store
    rw [readMetadata, (metaPiece_eq_some _ _ _).mpr ⟨h, rfl⟩, metaEntries]
    split <;> rfl
  have hacl : AclFieldFits r.field r.last → ∀ type,
      (readAcl type r.field r.last).join = some (storeAclItem (aclItem type r.field)) := by
    intro h type
    rw [readAcl, (aclPiece_eq_some _ _ _ _).mpr ⟨h, rfl⟩]
    rfl
  obtain ⟨header, field, last⟩ := r
  cases header with
  | metadata | listableMeta =>
      rw [readRound, hmeta hfits]
      simp only [ResponseHeader.array, ResponseHeader.stores]
      split
      · rename_i hsystem
        simp [hsystem]
      · rename_i hsystem
        simp [hsystem, storeMetadataEntry, storeListableEntry]
  | userAcl | groupAcl =>
      rw [readRound, hacl hfits]
      simp [ResponseHeader.array, ResponseHeader.stores, storeAclItem]

/-- **Array bounds.**  Reading a response into fresh arrays indexes them within
their sizes, and counts no more than these, exactly when no array gets more
pieces than it has slots, before a piece overflows a scratch buffer. -/
theorem response_arrays_iff (rest : RestClient) (curl : Curl) (headers : List CStr)
    {self : ResponseArrays} (hfresh : self.Fresh) :
    StaysWithin (readRound curl (isUtf8 rest headers)) (responseRounds rest headers)
        self.family ↔
      ∀ i : ResponseArray,
        storedPieces (reachedRounds (responseRounds rest headers)) i ≤ i.capacity := by
  have hreached : (responseRounds rest headers).takeWhile
      (fun r => (readRound curl (isUtf8 rest headers) r).isSome) =
        reachedRounds (responseRounds rest headers) := by
    rw [reachedRounds]
    congr 1
    funext r
    rw [Bool.eq_iff_iff, readRound_isSome, decide_eq_true_eq]
  have hitems : ∀ i, itemsFor (readRound curl (isUtf8 rest headers))
      (reachedRounds (responseRounds rest headers)) i =
        storedPieces (reachedRounds (responseRounds rest headers)) i := by
    intro i
    apply List.countP_congr
    intro r hr
    have hfits := List.mem_takeWhile_imp hr
    rw [decide_eq_true_eq, decide_eq_true_eq]
    exact join_readRound (decide_eq_true_eq.mp hfits)
  rw [staysWithin_iff put_isSome hfresh.fits, hreached]
  simp only [hitems, hfresh.empty, hfresh.size, Nat.zero_add]

/-- The arrays of a new response object. -/
def zeroedArrays : ResponseArrays where
  metadata := (List.replicate atmosMetaCountMax zeroedMetadata, 0)
  listableMeta := (List.replicate atmosMetaCountMax zeroedMetadata, 0)
  acl := (List.replicate atmosAclCountMax zeroedAcl, 0)

theorem zeroedArrays_fresh : zeroedArrays.Fresh where
  empty i := by cases i <;> rfl
  size i := by cases i <;> rfl

theorem response_arrays_iff_two :
    StaysWithin (readRound .standard false)
      (responseRounds .plain
        [bytes "x-emc-meta: farbe=rot,size=3", bytes "x-emc-useracl: bob=READ"])
      zeroedArrays.family := by
  have hbounds := response_arrays_iff .plain .standard
    [bytes "x-emc-meta: farbe=rot,size=3", bytes "x-emc-useracl: bob=READ"] zeroedArrays_fresh
  refine hbounds.mpr ?_
  intro i
  cases i <;> decide +kernel

/-- A header with 128 entries. -/
def manyEntries : CStr :=
  atmosHeaderMeta ++ bytes ": " ++ [comma].intercalate (List.replicate 128 (bytes "k=v"))

/-- Its last entry is stored behind the array. -/
theorem manyEntries_leave_array :
    ¬ StaysWithin (readRound .standard (isUtf8 .plain [manyEntries]))
      (responseRounds .plain [manyEntries]) zeroedArrays.family := by
  rw [staysWithin_iff put_isSome zeroedArrays_fresh.fits]
  intro h
  have hcount := h .metadata
  exact absurd hcount (by decide +kernel)

end Atmos
