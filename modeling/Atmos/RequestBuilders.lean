import Atmos.AclHeaders
import Atmos.FilledArrays

/-!
# The builders of a request

The functions `…_add_…` put the strings of the application into the arrays of a
request object, behind the entries that are there.  They never look at the
sizes: names, values and tags are copied by `strncpy` with the size of the
field, principals by `strcpy`.

* `BuilderCall.put_iff` — what a call leaves is a string exactly when the
  argument is shorter than its field;
* `builders_keep_entries_iff` — so a sequence of calls keeps its entries
  exactly when all strings are shorter than their fields and no array gets more
  entries than it has slots.
-/

namespace Atmos

open ByteText FixedMemory Block FilledArrays

/-! ## The arrays -/

/-- The arrays of tags. -/
inductive TagArray where
  | userMeta
  | systemMeta
  | directoryUser
  | directorySystem
  | objectsUser
  | objectsSystem
  deriving DecidableEq, Repr

/-- The arrays the builders fill. -/
inductive RequestArray where
  | metadata
  | listableMeta
  | acl
  | tags (array : TagArray)
  deriving DecidableEq, Repr

/-- `char[ATMOS_META_NAME_MAX]` -/
abbrev TagSlot := Block atmosMetaNameMax

/-- The system tags of a listing have a smaller array. -/
def TagArray.capacity : TagArray → Nat
  | userMeta | systemMeta | directoryUser | objectsUser => atmosMetaCountMax
  | directorySystem | objectsSystem => atmosSystemMetaCountMax

namespace RequestArray

/-- The slots of an array. -/
def Slot : RequestArray → Type
  | metadata | listableMeta => MetadataSlot
  | acl => AclSlot
  | tags _ => TagSlot

/-- The size of an array. -/
def capacity : RequestArray → Nat
  | metadata | listableMeta => atmosMetaCountMax
  | acl => atmosAclCountMax
  | tags array => array.capacity

end RequestArray

/-- The arrays of initialised requests, one request of each class: the sizes
are those of the objects, the counts are zero, the slots may hold anything. -/
structure Initialised (arrays : Arrays RequestArray.Slot) : Prop where
  empty : ∀ i, (arrays i).2 = 0
  size : ∀ i, (arrays i).1.length = i.capacity

/-- Every string of a slot is terminated within its own field. -/
def Terminated : (i : RequestArray) → i.Slot → Prop
  | .metadata, slot | .listableMeta, slot =>
      (readCStr (MetadataSlot.nameField slot)).isSome ∧
        (readCStr (MetadataSlot.valueField slot)).isSome
  | .acl, slot => (readCStr (AclSlot.principal slot).mem).isSome
  | .tags _, slot => (readCStr (Block.mem slot)).isSome

/-! ## The calls -/

/-- `AtmosWriteObjectRequest_add_metadata` -/
def AtmosWriteObjectRequest.addMetadata (name value : CStr) (listable : Bool) :
    Store RequestArray.Slot :=
  if listable then ⟨.listableMeta, setEntry name value⟩ else ⟨.metadata, setEntry name value⟩

/-- `AtmosWriteObjectRequest_add_acl` -/
def AtmosWriteObjectRequest.addAcl (principal : CStr) (type : AclPrincipalType)
    (permission : AclPermission) : Store RequestArray.Slot where
  array := .acl
  put := fun slot : AclSlot =>
    (slot.principal.write 0 (principal ++ [0])).map fun principal =>
      ({ principal, type, permission } : AclSlot)

/-- Copy a tag to the next slot of an array. -/
def addTag (array : TagArray) (tag : CStr) : Store RequestArray.Slot where
  array := .tags array
  put := fun slot : TagSlot => slot.write 0 (strncpy tag atmosMetaNameMax)

/-- `AtmosGetUserMetaRequest_add_tag` -/
def AtmosGetUserMetaRequest.addTag (tag : CStr) := Atmos.addTag .userMeta tag

/-- `AtmosGetSystemMetaRequest_add_tag` -/
def AtmosGetSystemMetaRequest.addTag (tag : CStr) := Atmos.addTag .systemMeta tag

/-- `AtmosListDirectoryRequest_add_user_tag` -/
def AtmosListDirectoryRequest.addUserTag (tag : CStr) := addTag .directoryUser tag

/-- `AtmosListDirectoryRequest_add_system_tag` -/
def AtmosListDirectoryRequest.addSystemTag (tag : CStr) := addTag .directorySystem tag

/-- `AtmosListObjectsRequest_add_user_tag` -/
def AtmosListObjectsRequest.addUserTag (tag : CStr) := addTag .objectsUser tag

/-- `AtmosListObjectsRequest_add_system_tag` -/
def AtmosListObjectsRequest.addSystemTag (tag : CStr) := addTag .objectsSystem tag

/-- A call of a builder. -/
inductive BuilderCall where
  | addMetadata (name value : CStr) (listable : Bool)
  | addAcl (principal : CStr) (type : AclPrincipalType) (permission : AclPermission)
  | addTag (array : TagArray) (tag : CStr)

namespace BuilderCall

/-- What a call stores. -/
def store : BuilderCall → Store RequestArray.Slot
  | addMetadata name value listable => AtmosWriteObjectRequest.addMetadata name value listable
  | addAcl principal type permission => AtmosWriteObjectRequest.addAcl principal type permission
  | addTag .userMeta tag => AtmosGetUserMetaRequest.addTag tag
  | addTag .systemMeta tag => AtmosGetSystemMetaRequest.addTag tag
  | addTag .directoryUser tag => AtmosListDirectoryRequest.addUserTag tag
  | addTag .directorySystem tag => AtmosListDirectoryRequest.addSystemTag tag
  | addTag .objectsUser tag => AtmosListObjectsRequest.addUserTag tag
  | addTag .objectsSystem tag => AtmosListObjectsRequest.addSystemTag tag

/-- The arguments are C strings. -/
def Strings : BuilderCall → Prop
  | addMetadata name value _ => 0 ∉ name ∧ 0 ∉ value
  | addAcl principal _ _ => 0 ∉ principal
  | addTag _ tag => 0 ∉ tag

instance : ∀ call : BuilderCall, Decidable call.Strings
  | addMetadata .. => inferInstanceAs (Decidable (_ ∧ _))
  | addAcl .. | addTag .. => inferInstanceAs (Decidable (¬ _))

/-- The arguments are shorter than their fields. -/
def Fits : BuilderCall → Prop
  | addMetadata name value _ =>
      name.length < atmosMetaNameMax ∧ value.length < atmosMetaValueMax
  | addAcl principal _ _ => principal.length < atmosUidMax
  | addTag _ tag => tag.length < atmosMetaNameMax

instance : ∀ call : BuilderCall, Decidable call.Fits
  | addMetadata .. => inferInstanceAs (Decidable (_ ∧ _))
  | addAcl .. | addTag .. => inferInstanceAs (Decidable (_ < _))

end BuilderCall

/-! ## One call -/

/-- An entry has strings in its fields exactly when the arguments are shorter
than these. -/
theorem setEntry_iff {name value : CStr} (hname : 0 ∉ name) (hvalue : 0 ∉ value)
    (slot : MetadataSlot) :
    (∃ slot', setEntry name value slot = some slot' ∧ (readCStr slot'.nameField).isSome ∧
      (readCStr slot'.valueField).isSome) ↔
      name.length < atmosMetaNameMax ∧ value.length < atmosMetaValueMax := by
  obtain ⟨slot', hset, hnamed, hvalued⟩ := setEntry_eq name value slot
  rw [← readCStr_strncpy_isSome hname, ← readCStr_strncpy_isSome hvalue, ← hnamed, ← hvalued, hset]
  constructor
  · rintro ⟨other, heq, hstrings⟩
    cases heq
    exact hstrings
  · intro hstrings
    exact ⟨slot', rfl, hstrings⟩

theorem addTag_iff {tag : CStr} (htag : 0 ∉ tag) (slot : TagSlot) :
    (∃ slot' : TagSlot, slot.write 0 (strncpy tag atmosMetaNameMax) = some slot' ∧
      (readCStr slot'.mem).isSome) ↔ tag.length < atmosMetaNameMax := by
  have hlength : (strncpy tag atmosMetaNameMax).length = atmosMetaNameMax := length_strncpy ..
  have hfits : 0 + (strncpy tag atmosMetaNameMax).length ≤ atmosMetaNameMax := by omega
  have hmem : (slot.put 0 (strncpy tag atmosMetaNameMax) hfits).mem =
      strncpy tag atmosMetaNameMax := by
    rw [put_mem, List.take_zero, List.nil_append, List.drop_of_length_le, List.append_nil]
    rw [slot.size, hlength, Nat.zero_add]
  have hstored : (readCStr (slot.put 0 (strncpy tag atmosMetaNameMax) hfits).mem).isSome ↔
      tag.length < atmosMetaNameMax := by
    rw [hmem]
    exact readCStr_strncpy_isSome htag _
  rw [write_of_fits _ hfits, ← hstored]
  constructor
  · rintro ⟨other, heq, hstring⟩
    cases heq
    exact hstring
  · intro hstring
    exact ⟨_, rfl, hstring⟩

/-- `strcpy` always leaves a terminator, but has no bound. -/
theorem addAcl_iff (principal : CStr) (type : AclPrincipalType) (permission : AclPermission)
    (slot : AclSlot) :
    (∃ slot' : AclSlot, (AtmosWriteObjectRequest.addAcl principal type permission).put slot =
      some slot' ∧ (readCStr slot'.principal.mem).isSome) ↔ principal.length < atmosUidMax := by
  have hlength : (principal ++ [0]).length = principal.length + 1 := List.length_append
  constructor
  · rintro ⟨slot', hput, -⟩
    obtain ⟨stored, hwrite, -⟩ := Option.map_eq_some_iff.mp hput
    by_contra hlong
    rw [write, dif_neg (by omega)] at hwrite
    exact absurd hwrite (Option.some_ne_none _).symm
  · intro hshort
    have hfits : 0 + (principal ++ [0]).length ≤ atmosUidMax := by omega
    refine ⟨⟨slot.principal.put 0 _ hfits, type, permission⟩, ?_, ?_⟩
    · exact congrArg (Option.map _) (write_of_fits slot.principal hfits)
    · rw [put_mem, List.take_zero, List.nil_append, readCStr_isSome_iff]
      exact List.mem_append_left _ (List.mem_append_right _ (List.mem_singleton_self 0))

/-- **One call** leaves strings in the fields it fills exactly when its
arguments are shorter than these. -/
theorem BuilderCall.put_iff {call : BuilderCall} (h : call.Strings)
    (slot : call.store.array.Slot) :
    (∃ slot', call.store.put slot = some slot' ∧ Terminated call.store.array slot') ↔
      call.Fits := by
  cases call with
  | addMetadata name value listable =>
      cases listable with
      | false => exact setEntry_iff h.1 h.2 slot
      | true => exact setEntry_iff h.1 h.2 slot
  | addAcl principal type permission => exact addAcl_iff principal type permission slot
  | addTag array tag =>
      cases array <;> exact addTag_iff h slot

/-! ## Sequences of calls -/

/-- Initialised requests hold no entries. -/
theorem Initialised.holds {arrays : Arrays RequestArray.Slot} (h : Initialised arrays) :
    Holds Terminated arrays where
  fits i := by
    rw [h.empty i]
    exact Nat.zero_le _
  good i slot hslot := by
    rw [h.empty i, List.take_zero] at hslot
    exact absurd hslot List.not_mem_nil

/-- **Capacity of the builders.**  In a sequence of calls on initialised
requests every call succeeds, keeps the counts within the arrays, leaves
terminated strings and does not change earlier entries, exactly when all
arguments are shorter than their fields and no array gets more entries than it
has slots. -/
theorem builders_keep_entries_iff {arrays : Arrays RequestArray.Slot}
    (hinit : Initialised arrays) {calls : List BuilderCall} (hcalls : ∀ c ∈ calls, c.Strings) :
    KeepsEntries Terminated (calls.map BuilderCall.store) arrays ↔
      (∀ c ∈ calls, c.Fits) ∧ ∀ i, calls.countP (fun c => c.store.array = i) ≤ i.capacity := by
  have hcounts : ∀ i, (arrays i).2 + calls.countP (fun c => c.store.array = i) ≤
      (arrays i).1.length ↔ calls.countP (fun c => c.store.array = i) ≤ i.capacity := by
    intro i
    rw [hinit.empty i, hinit.size i, Nat.zero_add]
  rw [keepsEntries_iff hinit.holds fun c hc => BuilderCall.put_iff (hcalls c hc)]
  exact and_congr_right fun _ => forall_congr' hcounts

/-- The slots of a new request. -/
def zeroedSlot : (i : RequestArray) → i.Slot
  | .metadata | .listableMeta => zeroedMetadata
  | .acl => zeroedAcl
  | .tags _ => (⟨List.replicate atmosMetaNameMax 0, List.length_replicate⟩ : TagSlot)

/-- The arrays of new requests. -/
def zeroedRequests : Arrays RequestArray.Slot := fun i =>
  (List.replicate i.capacity (zeroedSlot i), 0)

theorem zeroedRequests_initialised : Initialised zeroedRequests where
  empty _ := rfl
  size _ := List.length_replicate

theorem builders_keep_entries_iff_three :
    KeepsEntries Terminated
      ([.addMetadata (bytes "farbe") (bytes "rot") false, .addAcl (bytes "bob") .user .read,
        .addTag .objectsUser (bytes "farbe")].map BuilderCall.store) zeroedRequests := by
  refine (builders_keep_entries_iff zeroedRequests_initialised (by decide)).mpr
    ⟨by decide, ?_⟩
  intro i
  cases i with
  | tags array => cases array <;> decide
  | _ => decide

/-- A tag as long as its field. -/
def longTag : List BuilderCall := [.addTag .userMeta (List.replicate 255 97)]

/-- One tag more than a request has room for. -/
def manyTags : List BuilderCall := List.replicate 128 (.addTag .userMeta (bytes "farbe"))

/-- The first is stored without a terminator, the last of the others behind
the array. -/
theorem tags_leave_array :
    ¬ KeepsEntries Terminated (longTag.map BuilderCall.store) zeroedRequests ∧
    ¬ KeepsEntries Terminated (manyTags.map BuilderCall.store) zeroedRequests := by
  have hstrings : (∀ c ∈ longTag, c.Strings) ∧ ∀ c ∈ manyTags, c.Strings := by decide +kernel
  have hholds := zeroedRequests_initialised.holds
  constructor
  · rw [keepsEntries_iff hholds fun c hc => BuilderCall.put_iff (hstrings.1 c hc)]
    rintro ⟨hfits, -⟩
    exact absurd (hfits _ (List.mem_singleton_self _)) (by decide +kernel)
  · rw [keepsEntries_iff hholds fun c hc => BuilderCall.put_iff (hstrings.2 c hc)]
    rintro ⟨-, hcounts⟩
    exact absurd (hcounts (.tags .userMeta)) (by decide +kernel)

end Atmos
