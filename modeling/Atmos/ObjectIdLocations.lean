import Atmos.ResponseTexts
import Atmos.UnparsedFailures

/-!
# Object ids from locations

The answer to a create request names the new object in its `Location` header.
Two filters copy the id behind the path, with the length of what is left of the
location: they compare neither the path nor its length, and store no terminator.

* `copyLocation_leaves_iff` — one copy leaves the id, or nothing, exactly when
  the field has a terminator in place, or has the bytes already;
* `location_ids_iff` — so do both filters, for every answer and every field.
-/

namespace Atmos

open ByteText FixedMemory

def atmosOidLocationPrefix : CStr := bytes "/rest/objects/"

/-! ## Locations and fields -/

/-- The object id a location names: what follows the path, if a field can take
it. -/
def namedId (location : CStr) : Option CStr :=
  if atmosOidLocationPrefix <+: location ∧
      (location.drop atmosOidLocationPrefixSize).length ≤ atmosOidLength - 1 then
    some (location.drop atmosOidLocationPrefixSize)
  else none

/-- A field that should have the id of a location, or stay as it was. -/
def LeavesId (before : Block atmosOidLength) (location : CStr)
    (after : Block atmosOidLength) : Prop :=
  (namedId location).elim (after = before) fun objectId => after.cstrAt 0 = some objectId

/-- A location is at least as long as the path.  Behind an id that starts where
the path ends the field has a terminator; any other bytes are in the field
already. -/
def SafeToCopy (before : Block atmosOidLength) (location : CStr) : Prop :=
  atmosOidLocationPrefixSize ≤ location.length ∧
    if atmosOidLocationPrefix <+: location then
      before.mem[location.length - atmosOidLocationPrefixSize]? = some 0
    else location.drop atmosOidLocationPrefixSize <+: before.mem

/-- A location that is too long names nothing. -/
theorem namedId_of_long {location : CStr}
    (h : atmosOidLength - 1 + atmosOidLocationPrefixSize < location.length) :
    namedId location = none := by
  have hsizes : atmosOidLength = 65 ∧ atmosOidLocationPrefixSize = 14 := ⟨rfl, rfl⟩
  apply if_neg
  rintro ⟨-, hlength⟩
  rw [List.length_drop] at hlength
  omega

/-- One that is not names what follows the path. -/
theorem namedId_of_fits {location : CStr} (hpath : atmosOidLocationPrefix <+: location)
    (h : location.length ≤ atmosOidLength - 1 + atmosOidLocationPrefixSize) :
    namedId location = some (location.drop atmosOidLocationPrefixSize) := by
  apply if_pos
  refine ⟨hpath, ?_⟩
  rw [List.length_drop]
  omega

/-- **One copy** leaves the id of a location, or nothing, exactly when the
location is left out as too long or is safe to copy. -/
theorem copyLocation_leaves_iff (before : Block atmosOidLength) {location : CStr}
    (hnul : 0 ∉ location) :
    (∃ after, copyLocation before location = .ok after ∧ LeavesId before location after) ↔
      (location.length ≤ atmosOidLength - 1 + atmosOidLocationPrefixSize →
        SafeToCopy before location) := by
  have hsizes : atmosOidLength = 65 ∧ atmosOidLocationPrefixSize = 14 := ⟨rfl, rfl⟩
  have hlength : (location.drop atmosOidLocationPrefixSize).length =
      location.length - atmosOidLocationPrefixSize := List.length_drop
  unfold copyLocation
  by_cases hlong : atmosOidLength - 1 + atmosOidLocationPrefixSize < location.length
  · rw [if_pos hlong]
    have hleaves : LeavesId before location before := by
      rw [LeavesId, namedId_of_long hlong]
      rfl
    constructor
    · intro _ hshort
      omega
    · exact fun _ => ⟨before, rfl, hleaves⟩
  · rw [if_neg hlong]
    by_cases hshort : location.length < atmosOidLocationPrefixSize
    · -- the length that is left is below zero
      rw [if_pos hshort]
      constructor
      · rintro ⟨after, hafter, -⟩
        cases hafter
      · intro h
        have hsafe := (h (by omega)).1
        omega
    · rw [if_neg hshort]
      have hfits : 0 + (location.drop atmosOidLocationPrefixSize).length ≤ atmosOidLength := by
        omega
      have hdrop : 0 ∉ location.drop atmosOidLocationPrefixSize :=
        fun hmem => hnul (List.mem_of_mem_drop hmem)
      have hleaves : LeavesId before location (before.put 0 _ hfits) ↔
          SafeToCopy before location := by
        unfold LeavesId SafeToCopy
        by_cases hpath : atmosOidLocationPrefix <+: location
        · rw [namedId_of_fits hpath (by omega), Option.elim_some,
            Block.put_zero_cstrAt_iff before hdrop hfits, if_pos hpath, hlength]
          exact (and_iff_right (by omega)).symm
        · have hnone : namedId location = none := if_neg fun h => hpath h.1
          rw [hnone, Option.elim_none, Block.put_zero_eq_self_iff, if_neg hpath]
          exact (and_iff_right (by omega)).symm
      rw [Block.write_of_fits before hfits]
      constructor
      · rintro ⟨after, hafter, hid⟩ _
        obtain rfl : _ = after := Except.ok.inj hafter
        exact hleaves.mp hid
      · intro h
        exact ⟨_, rfl, hleaves.mpr (h (by omega))⟩

/-! ## Filters -/

section Answers

variable {env : ReplyEnv} (answer : LocationReply env)

/-- A field after the filter of an answer: without a location it stays as it
was. -/
def LocationReply.Leaves (before after : Block atmosOidLength) : Prop :=
  answer.location.elim (after = before) fun location => LeavesId before location after

/-- A location in the answer is too long, or is safe to copy. -/
def LocationReply.SafeFor (before : Block atmosOidLength) : Prop :=
  ∀ location, answer.location = some location →
    location.length ≤ atmosOidLength - 1 + atmosOidLocationPrefixSize →
      SafeToCopy before location

theorem LocationReply.copiedTo_leaves_iff (before : Block atmosOidLength) :
    (∃ after, answer.copiedTo before = .ok after ∧ answer.Leaves before after) ↔
      answer.SafeFor before := by
  have hnul := answer.nul
  rw [LocationReply.copiedTo, LocationReply.SafeFor]
  unfold LocationReply.Leaves
  cases hlocation : answer.location with
  | none => simp
  | some location =>
      have hiff := copyLocation_leaves_iff before (hnul location hlocation)
      dsimp only [Option.elim_some]
      rw [hiff]
      constructor
      · intro h location' hlocation'
        obtain rfl := Option.some.inj hlocation'
        exact h
      · exact fun h => h location rfl

/-- A filter that copies the location of an answer to a field of its response. -/
theorem copies_leaves_iff {data : Block atmosOidLength → ResponseData}
    (hdata : Function.Injective data) {parent : AtmosResponse} {before : Block atmosOidLength}
    {result : Except Fault Response}
    (hresult : result = (answer.copiedTo before).map fun after => ⟨parent, data after⟩) :
    (∃ after, result = .ok ⟨parent, data after⟩ ∧ answer.Leaves before after) ↔
      answer.SafeFor before := by
  rw [hresult]
  exact (exists_map_eq_ok (Response.injective hdata parent)).trans
    (answer.copiedTo_leaves_iff before)

end Answers

/-- **The ids in locations.**  The filter of a new object and that of a new
version leave the id an answer names, or the field they were given, exactly when
the location is too long or safe to copy to that field. -/
theorem location_ids_iff {env : ReplyEnv} (answer : LocationReply env) (parent : AtmosResponse)
    (before : Block atmosOidLength) :
    (parent.httpCode = 201 →
      ((∃ after, AtmosFilter.After.parseCreateResponse env answer.reply
          ⟨parent, .createObject before⟩ = .ok ⟨parent, .createObject after⟩ ∧
          answer.Leaves before after) ↔ answer.SafeFor before)) ∧
      (parent.httpCode ≤ 299 →
        ((∃ after, AtmosFilter.After.parseCreateVersionResponse env answer.reply
            ⟨parent, .createVersion before⟩ = .ok ⟨parent, .createVersion after⟩ ∧
            answer.Leaves before after) ↔ answer.SafeFor before)) := by
  constructor
  · intro hcode
    apply copies_leaves_iff answer fun _ _ => ResponseData.createObject.inj
    rw [AtmosFilter.After.parseCreateResponse, parseUnless_of_passed (by simp [hcode])]
    exact map_copiedTo answer .createObject parent before
  · intro hcode
    have hpassed : aboveSuccess parent.httpCode = false := decide_eq_false (by omega)
    apply copies_leaves_iff answer fun _ _ => ResponseData.createVersion.inj
    rw [AtmosFilter.After.parseCreateVersionResponse, parseUnless_of_passed hpassed]
    exact map_copiedTo answer .createVersion parent before

/-- An answer with the id of an object. -/
def createdReply : Reply :=
  { lostReply with httpCode := 201, headers := [bytes "Location: /rest/objects/4ee696e4"] }

theorem createdReply_location : createdReply.getHeaderValue blindEnv httpHeaderLocation =
    some (bytes "/rest/objects/4ee696e4") := by decide

def createdAnswer : LocationReply blindEnv where
  reply := createdReply
  nul := by
    intro location hlocation
    obtain rfl := Option.some.inj (createdReply_location.symm.trans hlocation)
    decide

/-- The response of a request that was answered so. -/
def createdParent : AtmosResponse := { AtmosResponse.init .subclass with httpCode := 201 }

/-- In a new response either filter leaves the id. -/
theorem location_ids_iff_new :
    (∃ after, AtmosFilter.After.parseCreateResponse blindEnv createdReply
        ⟨createdParent, .createObject (.zero _)⟩ = .ok ⟨createdParent, .createObject after⟩ ∧
        createdAnswer.Leaves (.zero _) after) ∧
      ∃ after, AtmosFilter.After.parseCreateVersionResponse blindEnv createdReply
        ⟨createdParent, .createVersion (.zero _)⟩ = .ok ⟨createdParent, .createVersion after⟩ ∧
        createdAnswer.Leaves (.zero _) after := by
  have hsafe : createdAnswer.SafeFor (.zero _) := by
    intro location hlocation _
    obtain rfl := Option.some.inj (createdReply_location.symm.trans hlocation)
    refine ⟨by decide, ?_⟩
    rw [if_pos (by decide)]
    decide
  have hiff := @location_ids_iff blindEnv createdAnswer createdParent (.zero _)
  exact ⟨(hiff.1 rfl).mpr hsafe, (hiff.2 (by decide)).mpr hsafe⟩

/-- A field with the id of an earlier object. -/
def earlierId : Block atmosOidLength := .strncpy (bytes "4ca53a98d0eb1f0f04cb20b6")

/-- The field after a shorter id was copied to it. -/
def mixedId : Block atmosOidLength := earlierId.put 0 (bytes "4ee696e4") (by decide)

/-- **The tail of an earlier id survives**, and a location that is shorter than
the path is copied past the end of the field. -/
theorem earlier_id_survives :
    createdAnswer.location = some (bytes "/rest/objects/4ee696e4") ∧
      (∃ after, AtmosFilter.After.parseCreateResponse blindEnv createdReply
          ⟨createdParent, .createObject earlierId⟩ = .ok ⟨createdParent, .createObject after⟩ ∧
        after.cstrAt 0 = some (bytes "4ee696e4d0eb1f0f04cb20b6") ∧
        ¬ createdAnswer.Leaves earlierId after) ∧
      copyLocation earlierId (bytes "/rest") = .error .overflow := by
  have hread : mixedId.cstrAt 0 = some (bytes "4ee696e4d0eb1f0f04cb20b6") := by decide
  refine ⟨createdReply_location, ⟨mixedId, rfl, hread, ?_⟩, rfl⟩
  intro hleaves
  have hid : mixedId.cstrAt 0 = some (bytes "4ee696e4") := hleaves
  rw [hread, Option.some_inj] at hid
  exact absurd hid (by decide)

end Atmos
