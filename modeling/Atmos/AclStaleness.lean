import Atmos.AclHeaders

/-!
# Stale permissions

`AtmosUtil_parse_acl` stores an entry in a slot of the caller's array.  It sets
the type and the principal, but only warns about a permission token it does
not know: the slot then keeps the permission it had before, and
`AtmosUtil_get_acl_permission` hands it out.

* `DeterminedByResponse` — the results do not depend on what the array held;
* `determinedByResponse_of_wellFormed` and `wellFormed_of_determinedByResponse`
  — this is so exactly for responses whose pieces fit and whose tokens are all
  known.
-/

namespace Atmos

open ByteText FixedMemory AtmosUtil

/-- What the parsed entries and every lookup in them are, does not depend on
the contents of the array before. -/
def DeterminedByResponse (rest : RestClient) (headers : List CStr) : Prop :=
  ∀ slots slots' : List AclSlot,
    slots.length = atmosAclCountMax → slots'.length = atmosAclCountMax →
    ∃ acl acl' aclCount,
      parseAclHeaders rest headers (slots, 0) = some (acl, aclCount) ∧
      parseAclHeaders rest headers (slots', 0) = some (acl', aclCount) ∧
      (acl.take aclCount).map AclSlot.view = (acl'.take aclCount).map AclSlot.view ∧
      ∀ principal principalType,
        getAclPermission (acl, aclCount) principal principalType =
          getAclPermission (acl', aclCount) principal principalType

/-- The two ACL headers of a response fit the parser and name known
permissions only. -/
structure AclWellFormed (rest : RestClient) (headers : List CStr) : Prop where
  fits : AclFieldsFit rest headers
  room : (aclFields rest headers atmosHeaderUserAcl).length +
    (aclFields rest headers atmosHeaderGroupAcl).length ≤ atmosAclCountMax
  tokens : ∀ name ∈ [atmosHeaderUserAcl, atmosHeaderGroupAcl],
    ∀ field ∈ aclFields rest headers name, entryValue field ∈ aclTokens

/-- A lookup only sees what the slots show. -/
theorem findAclPermission_eq_of_view {acl acl' : List AclSlot}
    (h : acl.map AclSlot.view = acl'.map AclSlot.view) (principal : CStr)
    (principalType : AclPrincipalType) :
    findAclPermission principal principalType acl =
      findAclPermission principal principalType acl' := by
  induction acl generalizing acl' with
  | nil =>
      rw [List.map_nil, eq_comm, List.map_eq_nil_iff] at h
      rw [h]
  | cons slot acl ih =>
      cases acl' with
      | nil => cases h
      | cons slot' acl' =>
          rw [List.map_cons, List.map_cons] at h
          obtain ⟨hview, htail⟩ := List.cons.inj h
          have hrest := ih htail
          rw [findAclPermission, findAclPermission]
          rw [AclSlot.view, AclSlot.view] at hview
          cases hstored : slot.principal.cstrAt 0 with
          | none =>
              rw [hstored, Option.map_none, eq_comm, Option.map_eq_none_iff] at hview
              rw [hview]
              rfl
          | some stored =>
              rw [hstored, Option.map_some, eq_comm, Option.map_eq_some_iff] at hview
              obtain ⟨stored', hstored', heq⟩ := hview
              obtain ⟨rfl, htype, hperm⟩ := AtmosAclEntry.mk.inj heq
              simp only [hstored', Option.bind_eq_bind, Option.bind_some, htype, hperm, hrest]

/-- The tokens of the stored items. -/
theorem token_mem_aclItems (rest : RestClient) (headers : List CStr) :
    (∀ name ∈ [atmosHeaderUserAcl, atmosHeaderGroupAcl],
      ∀ field ∈ aclFields rest headers name, entryValue field ∈ aclTokens) ↔
    ∀ item ∈ aclItems rest headers, item.token ∈ aclTokens := by
  constructor
  · intro h item hitem
    rcases List.mem_append.mp hitem with hitem | hitem
    · obtain ⟨field, hfield, rfl⟩ := List.mem_map.mp hitem
      exact h atmosHeaderUserAcl (by simp) field hfield
    · obtain ⟨field, hfield, rfl⟩ := List.mem_map.mp hitem
      exact h atmosHeaderGroupAcl (by simp) field hfield
  · intro h name hname field hfield
    rcases List.mem_cons.mp hname with rfl | hname
    · exact h _ (List.mem_append_left _ (List.mem_map_of_mem hfield))
    · rw [List.mem_singleton] at hname
      subst hname
      exact h _ (List.mem_append_right _ (List.mem_map_of_mem hfield))

theorem length_aclItems (rest : RestClient) (headers : List CStr) :
    (aclItems rest headers).length = (aclFields rest headers atmosHeaderUserAcl).length +
      (aclFields rest headers atmosHeaderGroupAcl).length := by
  rw [aclItems, List.length_append, List.length_map, List.length_map]

/-- What is counted after the parse. -/
private theorem take_parsed {rest : RestClient} {headers : List CStr}
    {slots : List AclSlot} {acl : List AclSlot} {aclCount : Nat}
    (h : parseAclHeaders rest headers (slots, 0) = some (acl, aclCount)) :
    AclFieldsFit rest headers ∧ (aclItems rest headers).length ≤ slots.length ∧
      aclCount = (aclItems rest headers).length ∧
      acl.take aclCount = List.zipWith storeAcl (aclItems rest headers) slots := by
  obtain ⟨⟨hfits, hroom⟩, heq⟩ := (parseAclHeaders_eq rest headers slots _).mp h
  obtain ⟨hacl, hcount⟩ := Prod.mk.inj heq
  refine ⟨hfits, hroom, hcount.symm, ?_⟩
  rw [← hacl, ← hcount, List.take_append_of_le_length (by simp [hroom]),
    List.take_of_length_le (by simp)]

/-- Known tokens determine the permissions. -/
theorem determinedByResponse_of_wellFormed {rest : RestClient} {headers : List CStr}
    (h : AclWellFormed rest headers) : DeterminedByResponse rest headers := by
  intro slots slots' hslots hslots'
  have hlength := length_aclItems rest headers
  have hroom := h.room
  have hparse := (parseAclHeaders_eq rest headers slots _).mpr
    ⟨⟨h.fits, by omega⟩, rfl⟩
  have hparse' := (parseAclHeaders_eq rest headers slots' _).mpr
    ⟨⟨h.fits, by omega⟩, rfl⟩
  obtain ⟨-, -, -, htake⟩ := take_parsed hparse
  obtain ⟨-, -, -, htake'⟩ := take_parsed hparse'
  -- what the stored slots show, whatever they held before
  have hshown : ∀ slots : List AclSlot, slots.length = atmosAclCountMax →
      (List.zipWith storeAcl (aclItems rest headers) slots).map AclSlot.view =
        (aclItems rest headers).map fun item => some
          { principal := storedPrincipal item.principal
            type := item.type
            permission := (permissionOf item.token).getD .none } := by
    intro slots hslots
    have hstore : ∀ item ∈ aclItems rest headers, ∀ slot, (storeAcl item slot).view = some
        { principal := storedPrincipal item.principal
          type := item.type
          permission := (permissionOf item.token).getD .none } := by
      intro item hitem slot
      have htoken := (token_mem_aclItems rest headers).mp h.tokens item hitem
      obtain ⟨permission, hpermission⟩ :=
        Option.isSome_iff_exists.mp (permissionOf_isSome.mpr htoken)
      rw [view_storeAcl, hpermission]
      rfl
    have hroom : (aclItems rest headers).length ≤ slots.length := by omega
    have hmap := map_zipWith_store storeAcl hstore hroom
    rw [List.map_id', List.map_map] at hmap
    exact hmap
  have hview := (congrArg (List.map AclSlot.view) htake).trans (hshown slots hslots)
  have hview' := (congrArg (List.map AclSlot.view) htake').trans (hshown slots' hslots')
  refine ⟨_, _, _, hparse, hparse', hview.trans hview'.symm, ?_⟩
  intro principal principalType
  exact findAclPermission_eq_of_view (hview.trans hview'.symm) principal principalType

/-- The principal of a slot nobody has written to. -/
def leftoverPrincipal : List UInt8 := List.replicate atmosUidMax 0

theorem length_leftoverPrincipal : leftoverPrincipal.length = atmosUidMax :=
  List.length_replicate

/-- A slot left over with a permission. -/
def leftoverSlot (permission : AclPermission) : AclSlot where
  principal := ⟨leftoverPrincipal, length_leftoverPrincipal⟩
  type := .user
  permission := permission

/-- **An unknown token shows the old permission.**  If two arrays that differ
in their permissions only cannot be told apart afterwards, every token is
known. -/
theorem wellFormed_of_determinedByResponse {rest : RestClient} {headers : List CStr}
    (h : DeterminedByResponse rest headers) : AclWellFormed rest headers := by
  obtain ⟨acl, acl', aclCount, hparse, hparse', hview, -⟩ :=
    h (List.replicate atmosAclCountMax (leftoverSlot .full))
      (List.replicate atmosAclCountMax (leftoverSlot .none))
      List.length_replicate List.length_replicate
  obtain ⟨hfits, hroom, -, htake⟩ := take_parsed hparse
  obtain ⟨-, -, -, htake'⟩ := take_parsed hparse'
  rw [List.length_replicate] at hroom
  have hstored : ∀ slot : AclSlot,
      List.zipWith storeAcl (aclItems rest headers) (List.replicate atmosAclCountMax slot) =
        (aclItems rest headers).map (storeAcl · slot) := by
    intro slot
    exact zipWith_replicate_of_le storeAcl hroom slot
  refine ⟨hfits, ?_, (token_mem_aclItems rest headers).mpr ?_⟩
  · rw [← length_aclItems]
    exact hroom
  · intro item hitem
    rw [htake, htake', hstored, hstored, List.map_map, List.map_map] at hview
    have hitemView := List.map_inj_left.mp hview item hitem
    rw [Function.comp_apply, Function.comp_apply, view_storeAcl, view_storeAcl] at hitemView
    have hpermission := (AtmosAclEntry.mk.inj (Option.some.inj hitemView)).2.2
    apply permissionOf_isSome.mp
    cases hknown : permissionOf item.token with
    | some permission => rfl
    | none =>
        rw [hknown] at hpermission
        cases hpermission

/-- **No stale permission, exactly when.**  The entries of a response and every
lookup in them are determined by the response alone if and only if all pieces
of its ACL headers fit the parser, are at most 64, and carry known permission
tokens. -/
theorem determinedByResponse_iff (rest : RestClient) (headers : List CStr) :
    DeterminedByResponse rest headers ↔ AclWellFormed rest headers :=
  ⟨wellFormed_of_determinedByResponse, determinedByResponse_of_wellFormed⟩

/-- With an unknown token, an array left over from a response that granted
full control grants it again. -/
theorem stale_permission_granted :
    (parseAclHeaders RestClient.plain [bytes "x-emc-useracl: bob=BOGUS"]
        (List.replicate atmosAclCountMax (leftoverSlot .full), 0)).bind
      (getAclPermission · (bytes "bob") .user) = some .full ∧
    (parseAclHeaders RestClient.plain [bytes "x-emc-useracl: bob=BOGUS"]
        (List.replicate atmosAclCountMax (leftoverSlot .none), 0)).bind
      (getAclPermission · (bytes "bob") .user) = some .none ∧
    ¬ DeterminedByResponse RestClient.plain [bytes "x-emc-useracl: bob=BOGUS"] := by
  refine ⟨by decide, by decide, ?_⟩
  intro h
  have htokens := (wellFormed_of_determinedByResponse h).tokens atmosHeaderUserAcl (by simp)
  exact absurd (htokens (bytes "bob=BOGUS") (by decide)) (by decide)

end Atmos
