import Atmos.LastWrite
import Atmos.MetadataHeaders

/-!
# Access control headers

`AtmosUtil_set_acl_header` splits a list of ACL entries into a header for
users and one for groups; `AtmosUtil_parse_acl_headers` reads the two headers
back into one array, the users first.

* `permissionOf_getPermissionString` — the two permission tables are inverse;
* `setAclHeader_eq_some` — the two headers the writer adds;
* `parseAclHeaders_eq` — the reader stores the pieces of both headers one
  after the other, provided they fit.
-/

namespace Atmos

open ByteText FixedMemory

/-- `enum atmos_acl_principal_type`; memory may hold other numbers. -/
inductive AclPrincipalType where
  | user
  | group
  | invalid (code : Int)
  deriving DecidableEq, Repr

/-- `enum atmos_acl_permission`; memory may hold other numbers. -/
inductive AclPermission where
  | none
  | read
  | readWrite
  | full
  | readAcl
  | writeAcl
  | execute
  | invalid (code : Int)
  deriving DecidableEq, Repr

/-- `AtmosAclEntry`, with the string in its first field. -/
structure AtmosAclEntry where
  principal : CStr
  type : AclPrincipalType
  permission : AclPermission
  deriving DecidableEq, Repr

/-- `AtmosAclEntry`, as memory. -/
structure AclSlot where
  principal : Block atmosUidMax
  type : AclPrincipalType
  permission : AclPermission

/-- An access control entry nobody has written to. -/
def zeroedAcl : AclSlot where
  principal := ⟨List.replicate atmosUidMax 0, List.length_replicate⟩
  type := .user
  permission := .none

/-- The entry a slot shows. -/
def AclSlot.view (slot : AclSlot) : Option AtmosAclEntry :=
  (slot.principal.cstrAt 0).map fun principal =>
    { principal, type := slot.type, permission := slot.permission }

namespace AtmosUtil

/-! ## Writing -/

/-- `AtmosUtil_get_permission_string`: no result for a number outside the
enumeration, where it returns NULL. -/
def getPermissionString : AclPermission → Option CStr
  | .execute => some atmosAclPermissionExecute
  | .writeAcl => some atmosAclPermissionWriteAcl
  | .readAcl => some atmosAclPermissionReadAcl
  | .full => some atmosAclPermissionFull
  | .read => some atmosAclPermissionRead
  | .readWrite => some atmosAclPermissionReadwrite
  | .none => some atmosAclPermissionNone
  | .invalid _ => Option.none

/-- Append an entry to one of the two headers, which is started by the first
one. -/
def appendAcl (name : CStr) (header : Option CStr) (entry : AtmosAclEntry) :
    Option (Option CStr) := do
  let header :=
    match header with
    | some header => header ++ bytes ", "
    | none => name ++ bytes ": "
  let permission ← getPermissionString entry.permission
  some (some (header ++ entry.principal ++ [equals] ++ permission))

/-- One round of the loop of `AtmosUtil_set_acl_header`: the user header and
the group header. -/
def aclStep (headers : Option CStr × Option CStr) (entry : AtmosAclEntry) :
    Option (Option CStr × Option CStr) := do
  let (userAclHeader, groupAclHeader) := headers
  match entry.type with
  | .group =>
      if entry.principal ≠ atmosAclGroupOther then some (userAclHeader, groupAclHeader)
      else
        let groupAclHeader ← appendAcl atmosHeaderGroupAcl groupAclHeader entry
        some (userAclHeader, groupAclHeader)
  | .user =>
      let userAclHeader ← appendAcl atmosHeaderUserAcl userAclHeader entry
      some (userAclHeader, groupAclHeader)
  | .invalid _ => some (userAclHeader, groupAclHeader)

/-- `AtmosUtil_set_acl_header` -/
def setAclHeader (acl : List AtmosAclEntry) (request : RestRequest) :
    Option RestRequest :=
  if acl.length < 1 then some request
  else do
    let (userAclHeader, groupAclHeader) ← acl.foldlM aclStep (none, none)
    let request :=
      match userAclHeader with
      | some header => request.addHeader header
      | none => request
    let request :=
      match groupAclHeader with
      | some header => request.addHeader header
      | none => request
    some request

/-! ## Reading -/

/-- The permission a token stands for; the loop leaves the field alone where
there is none. -/
def permissionOf (entryValue : CStr) : Option AclPermission :=
  if entryValue = atmosAclPermissionFull then some .full
  else if entryValue = atmosAclPermissionNone then some .none
  else if entryValue = atmosAclPermissionRead then some .read
  else if entryValue = atmosAclPermissionReadwrite then some .readWrite
  else if entryValue = atmosAclPermissionReadAcl then some .readAcl
  else if entryValue = atmosAclPermissionWriteAcl then some .writeAcl
  else if entryValue = atmosAclPermissionExecute then some .execute
  else none

/-- `sizeof(entry)` -/
abbrev aclEntrySize : Nat := atmosUidMax * 2 + 1

/-- The caller's array and `*acl_count`. -/
abbrev AclArray := List AclSlot × Nat

/-- One round of the loop of `AtmosUtil_parse_acl`. -/
def parseAclField (type : AclPrincipalType) (array : AclArray) (field : CStr)
    (last : Bool) : Option AclArray := do
  let (acl, aclCount) := array
  let entry ← entryText aclEntrySize field last
  let (entryName, entryValue) ← parseMetaHeaderEntry atmosUidMax atmosUidMax entry []
  let slot ← acl[aclCount]?
  let principal ← slot.principal.write 0 (strlcpy entryName atmosUidMax)
  let permission :=
    match permissionOf entryValue with
    | some permission => permission
    | none => slot.permission
  some (acl.set aclCount { principal, type, permission }, aclCount + 1)

/-- `AtmosUtil_parse_acl` -/
def parseAcl (type : AclPrincipalType) (value : CStr) (array : AclArray) :
    Option AclArray :=
  scanFields comma (parseAclField type) value array

/-- Parse one of the two headers if the response has it. -/
def parseAclHeader (rest : RestClient) (headers : List CStr) (name : CStr)
    (type : AclPrincipalType) (array : AclArray) : Option AclArray :=
  match rest.getHeaderValue headers name with
  | some value => parseAcl type value array
  | none => some array

/-- `AtmosUtil_parse_acl_headers`, given the header lines of the response. -/
def parseAclHeaders (rest : RestClient) (headers : List CStr) (array : AclArray) :
    Option AclArray := do
  let array ← parseAclHeader rest headers atmosHeaderUserAcl .user array
  parseAclHeader rest headers atmosHeaderGroupAcl .group array

/-- The loop of `AtmosUtil_get_acl_permission` over the counted entries; no
result where a principal is not terminated. -/
def findAclPermission (principal : CStr) (principalType : AclPrincipalType) :
    List AclSlot → Option AclPermission
  | [] => some .none
  | slot :: acl => do
      let stored ← slot.principal.cstrAt 0
      if stored = principal ∧ slot.type = principalType then some slot.permission
      else findAclPermission principal principalType acl

/-- `AtmosUtil_get_acl_permission` -/
def getAclPermission (array : AclArray) (principal : CStr)
    (principalType : AclPrincipalType) : Option AclPermission :=
  findAclPermission principal principalType (array.1.take array.2)

end AtmosUtil

/-! ## The permission tables -/

/-- **The two permission tables are inverse.** -/
theorem permissionOf_getPermissionString {permission : AclPermission} {token : CStr}
    (h : AtmosUtil.getPermissionString permission = some token) :
    AtmosUtil.permissionOf token = some permission := by
  cases permission <;> cases h <;> rfl

/-- The tokens that name a permission. -/
def aclTokens : List CStr :=
  [atmosAclPermissionFull, atmosAclPermissionNone, atmosAclPermissionRead,
    atmosAclPermissionReadwrite, atmosAclPermissionReadAcl, atmosAclPermissionWriteAcl,
    atmosAclPermissionExecute]

theorem permissionOf_isSome {token : CStr} :
    (AtmosUtil.permissionOf token).isSome ↔ token ∈ aclTokens := by
  simp only [AtmosUtil.permissionOf, aclTokens, List.mem_cons, List.not_mem_nil, or_false]
  grind

/-! ## What is written -/

/-- An entry as it stands in a header. -/
def aclText (entry : AtmosAclEntry) : CStr :=
  entry.principal ++ equals :: (AtmosUtil.getPermissionString entry.permission).getD []

/-- The value of the header for some entries. -/
def aclValue (entries : List AtmosAclEntry) : CStr :=
  (bytes ", ").intercalate (entries.map aclText)

/-- A header for some entries; none for no entries. -/
def aclLine (name : CStr) (entries : List AtmosAclEntry) : Option CStr :=
  if entries = [] then none else some (headerLine name (aclValue entries))

/-- The entries that go into the user header. -/
def aclUsers (acl : List AtmosAclEntry) : List AtmosAclEntry :=
  acl.filter (·.type = .user)

/-- The entries that go into the group header. -/
def aclOthers (acl : List AtmosAclEntry) : List AtmosAclEntry :=
  acl.filter fun entry => entry.type = .group ∧ entry.principal = atmosAclGroupOther

theorem appendAcl_eq_some {name : CStr} {entries : List AtmosAclEntry} {entry : AtmosAclEntry}
    {header : Option CStr}
    (h : AtmosUtil.appendAcl name (aclLine name entries) entry = some header) :
    header = aclLine name (entries ++ [entry]) := by
  unfold AtmosUtil.appendAcl at h
  obtain ⟨token, htoken, h⟩ := Option.bind_eq_some_iff.mp h
  have htext : aclText entry = entry.principal ++ equals :: token := by
    rw [aclText, htoken, Option.getD_some]
  rw [← Option.some.inj h]
  unfold aclLine headerLine aclValue
  by_cases hnil : entries = []
  · subst hnil
    simp [htext]
  · have hjoin : (bytes ", ").intercalate (entries.map aclText ++ [aclText entry]) =
        (bytes ", ").intercalate (entries.map aclText) ++ bytes ", " ++ aclText entry :=
      intercalate_concat _ (by simpa using hnil) _
    rw [if_neg hnil, if_neg (by simp), List.map_append, List.map_singleton, hjoin, htext]
    simp

/-- One round adds the entry to the header of its kind. -/
theorem aclStep_eq_some {users others : List AtmosAclEntry} {entry : AtmosAclEntry}
    {headers : Option CStr × Option CStr}
    (h : AtmosUtil.aclStep
      (aclLine atmosHeaderUserAcl users, aclLine atmosHeaderGroupAcl others) entry =
        some headers) :
    headers = (aclLine atmosHeaderUserAcl (users ++ aclUsers [entry]),
      aclLine atmosHeaderGroupAcl (others ++ aclOthers [entry])) := by
  unfold AtmosUtil.aclStep at h
  cases htype : entry.type with
  | user =>
      simp only [htype] at h
      obtain ⟨header, hheader, h⟩ := Option.bind_eq_some_iff.mp h
      rw [← Option.some.inj h, appendAcl_eq_some hheader]
      simp [aclUsers, aclOthers, htype]
  | group =>
      simp only [htype] at h
      split at h
      · rename_i hother
        rw [← Option.some.inj h]
        simp [aclUsers, aclOthers, htype, hother]
      · rename_i hother
        obtain ⟨header, hheader, h⟩ := Option.bind_eq_some_iff.mp h
        rw [← Option.some.inj h, appendAcl_eq_some hheader]
        have hprincipal : entry.principal = atmosAclGroupOther := by
          by_contra hne
          exact hother hne
        simp [aclUsers, aclOthers, htype, hprincipal]
  | invalid code =>
      simp only [htype] at h
      rw [← Option.some.inj h]
      simp [aclUsers, aclOthers, htype]

/-- **The loop of the writer** collects the users in one header and the group
`other` in the other one. -/
theorem foldlM_aclStep_eq_some {acl users others : List AtmosAclEntry}
    {headers : Option CStr × Option CStr}
    (h : acl.foldlM AtmosUtil.aclStep
      (aclLine atmosHeaderUserAcl users, aclLine atmosHeaderGroupAcl others) = some headers) :
    headers = (aclLine atmosHeaderUserAcl (users ++ aclUsers acl),
      aclLine atmosHeaderGroupAcl (others ++ aclOthers acl)) := by
  induction acl generalizing users others with
  | nil =>
      rw [← Option.some.inj h]
      simp [aclUsers, aclOthers]
  | cons entry acl ih =>
      rw [List.foldlM_cons] at h
      obtain ⟨next, hstep, h⟩ := Option.bind_eq_some_iff.mp h
      rw [aclStep_eq_some hstep] at h
      have husers : aclUsers (entry :: acl) = aclUsers [entry] ++ aclUsers acl :=
        List.filter_append [entry] acl
      have hothers : aclOthers (entry :: acl) = aclOthers [entry] ++ aclOthers acl :=
        List.filter_append [entry] acl
      rw [ih h, husers, hothers, List.append_assoc, List.append_assoc]

/-- **What the writer adds**: a header for the users and one for the group,
each only if it has entries. -/
theorem setAclHeader_eq_some {acl : List AtmosAclEntry} {request request' : RestRequest}
    (h : AtmosUtil.setAclHeader acl request = some request') :
    request' = { request with
      headers := request.headers ++ ((aclLine atmosHeaderUserAcl (aclUsers acl)).toList ++
        (aclLine atmosHeaderGroupAcl (aclOthers acl)).toList) } := by
  unfold AtmosUtil.setAclHeader at h
  split at h
  · rename_i hempty
    have hnil : acl = [] := List.length_eq_zero_iff.mp (by omega)
    rw [← Option.some.inj h, hnil]
    simp [aclUsers, aclOthers, aclLine]
  · obtain ⟨headers, hloop, h⟩ := Option.bind_eq_some_iff.mp h
    have hnone : ∀ name, aclLine name [] = none := fun name => if_pos rfl
    have heq := @foldlM_aclStep_eq_some acl [] [] headers (by rw [hnone, hnone]; exact hloop)
    rw [List.nil_append, List.nil_append] at heq
    rw [heq] at h
    rw [← Option.some.inj h]
    cases aclLine atmosHeaderUserAcl (aclUsers acl) <;>
      cases aclLine atmosHeaderGroupAcl (aclOthers acl) <;>
        simp [RestRequest.addHeader]

/-- The writer has a result for entries with valid permissions. -/
theorem setAclHeader_isSome {acl : List AtmosAclEntry}
    (hperm : ∀ e ∈ acl, (AtmosUtil.getPermissionString e.permission).isSome)
    (request : RestRequest) : (AtmosUtil.setAclHeader acl request).isSome := by
  have hstep : ∀ e ∈ acl, ∀ headers, (AtmosUtil.aclStep headers e).isSome := by
    intro e he headers
    obtain ⟨token, htoken⟩ := Option.isSome_iff_exists.mp (hperm e he)
    simp only [AtmosUtil.aclStep, AtmosUtil.appendAcl, htoken]
    repeat' split
    all_goals rfl
  have hloop := LastWrite.foldlM_isSome hstep
  unfold AtmosUtil.setAclHeader
  split
  · rfl
  · obtain ⟨headers, hheaders⟩ := Option.isSome_iff_exists.mp (hloop (none, none))
    rw [hheaders]
    rfl

/-! ## What is read -/

/-- A piece of an ACL header: the type of its header, its principal and its
permission token. -/
structure AclItem where
  type : AclPrincipalType
  principal : CStr
  token : CStr

/-- A slot after an item is stored in it: an unknown token leaves the
permission alone. -/
def storeAcl (item : AclItem) (slot : AclSlot) : AclSlot where
  principal := slot.principal.put 0 (strlcpy item.principal atmosUidMax) (by
    have := length_strlcpy_le item.principal (n := atmosUidMax) (by decide)
    omega)
  type := item.type
  permission := (AtmosUtil.permissionOf item.token).getD slot.permission

/-- Whether a piece fits the scratch buffers of the ACL reader. -/
def AclFieldFits (field : CStr) (last : Bool) : Prop :=
  FieldFits AtmosUtil.aclEntrySize atmosUidMax atmosUidMax field last

instance (field : CStr) (last : Bool) : Decidable (AclFieldFits field last) :=
  inferInstanceAs (Decidable (FieldFits ..))

/-- The item a piece holds. -/
def aclItem (type : AclPrincipalType) (field : CStr) : AclItem :=
  { type, principal := entryName field, token := entryValue field }

/-- The reading part of one round. -/
def aclPiece (type : AclPrincipalType) (field : CStr) (last : Bool) :
    Option (List AclItem) :=
  (readEntry AtmosUtil.aclEntrySize atmosUidMax atmosUidMax field last).map fun p =>
    [{ type, principal := p.1, token := p.2 }]

theorem aclPiece_eq_some (type : AclPrincipalType) (field : CStr) (last : Bool)
    (items : List AclItem) :
    aclPiece type field last = some items ↔
      AclFieldFits field last ∧ [aclItem type field] = items := by
  rw [aclPiece, Option.map_eq_some_iff]
  constructor
  · rintro ⟨p, hp, hitems⟩
    obtain ⟨hfits, rfl⟩ := (readEntry_eq_some (by decide)).mp hp
    exact ⟨hfits, hitems⟩
  · rintro ⟨hfits, hitems⟩
    exact ⟨_, (readEntry_eq_some (by decide)).mpr ⟨hfits, rfl⟩, hitems⟩

/-- One round reads a piece and stores it. -/
theorem parseAclField_eq (type : AclPrincipalType) (array : AtmosUtil.AclArray)
    (field : CStr) (last : Bool) :
    AtmosUtil.parseAclField type array field last =
      (aclPiece type field last).bind fun items =>
        items.foldlM (appendSlot storeAcl) array := by
  obtain ⟨acl, aclCount⟩ := array
  rw [AtmosUtil.parseAclField, aclPiece, readEntry]
  cases AtmosUtil.entryText AtmosUtil.aclEntrySize field last with
  | none => rfl
  | some entry =>
      simp only [Option.bind_eq_bind, Option.bind_some]
      cases AtmosUtil.parseMetaHeaderEntry atmosUidMax atmosUidMax entry [] with
      | none => rfl
      | some parsed =>
          simp only [Option.bind_some, Option.map_some, List.foldlM_cons, List.foldlM_nil,
            appendSlot]
          cases acl[aclCount]? with
          | none => rfl
          | some slot =>
              have hfits : 0 + (strlcpy parsed.1 atmosUidMax).length ≤ atmosUidMax := by
                have := length_strlcpy_le parsed.1 (n := atmosUidMax) (by decide)
                omega
              rw [Option.bind_some, slot.principal.write_of_fits hfits, Option.bind_some]
              cases hperm : AtmosUtil.permissionOf parsed.2 <;>
                simp [storeAcl, hperm]

/-- The pieces of a header, if the response has it. -/
def aclFields (rest : RestClient) (headers : List CStr) (name : CStr) : List CStr :=
  match rest.getHeaderValue headers name with
  | some value => value.splitOn comma
  | none => []

/-- The items of both headers, users first. -/
def aclItems (rest : RestClient) (headers : List CStr) : List AclItem :=
  (aclFields rest headers atmosHeaderUserAcl).map (aclItem .user) ++
    (aclFields rest headers atmosHeaderGroupAcl).map (aclItem .group)

/-- Every piece of both headers fits the scratch buffers. -/
def AclFieldsFit (rest : RestClient) (headers : List CStr) : Prop :=
  AllFields AclFieldFits (aclFields rest headers atmosHeaderUserAcl) ∧
    AllFields AclFieldFits (aclFields rest headers atmosHeaderGroupAcl)

/-- The reader of one header. -/
theorem parseAcl_eq (type : AclPrincipalType) (value : CStr) (array : AtmosUtil.AclArray) :
    AtmosUtil.parseAcl type value array =
      (mapFields (aclPiece type) (value.splitOn comma)).bind fun items =>
        items.flatten.foldlM (appendSlot storeAcl) array := by
  rw [AtmosUtil.parseAcl, scanFields_eq_foldFields]
  exact foldFields_eq_mapFields (parseAclField_eq type) _ _

/-- One header whose pieces fit, present or not. -/
theorem parseAclHeader_of_fits (rest : RestClient) (headers : List CStr) (name : CStr)
    (type : AclPrincipalType) (array : AtmosUtil.AclArray)
    (hfits : AllFields AclFieldFits (aclFields rest headers name)) :
    AtmosUtil.parseAclHeader rest headers name type array =
      ((aclFields rest headers name).map (aclItem type)).foldlM (appendSlot storeAcl)
        array := by
  rw [aclFields] at hfits ⊢
  rw [AtmosUtil.parseAclHeader]
  cases hvalue : rest.getHeaderValue headers name with
  | none => rfl
  | some value =>
      rw [hvalue] at hfits
      have hread : mapFields (aclPiece type) (value.splitOn comma) =
          some ((value.splitOn comma).map fun field => [aclItem type field]) :=
        (mapFields_eq_some_iff (aclPiece_eq_some type)).mpr ⟨hfits, rfl⟩
      simp only [parseAcl_eq, hread, Option.bind_some]
      rw [← List.flatMap_def, List.map_eq_flatMap]

/-- One header with a piece that does not fit. -/
theorem parseAclHeader_of_not_fits (rest : RestClient) (headers : List CStr) (name : CStr)
    (type : AclPrincipalType) (array : AtmosUtil.AclArray)
    (hfits : ¬ AllFields AclFieldFits (aclFields rest headers name)) :
    AtmosUtil.parseAclHeader rest headers name type array = none := by
  rw [aclFields] at hfits
  rw [AtmosUtil.parseAclHeader]
  cases hvalue : rest.getHeaderValue headers name with
  | none =>
      rw [hvalue] at hfits
      exact absurd trivial hfits
  | some value =>
      rw [hvalue] at hfits
      simp only [parseAcl_eq]
      cases hpieces : mapFields (aclPiece type) (value.splitOn comma) with
      | none => rfl
      | some items =>
          have hread := (mapFields_eq_some_iff (aclPiece_eq_some type)).mp hpieces
          exact absurd hread.1 hfits

/-- **What the reader stores.**  If every piece fits and the array has room,
the slots at its start are given the items of the two headers, and no other
slot changes; otherwise there is no result. -/
theorem parseAclHeaders_eq (rest : RestClient) (headers : List CStr)
    (slots : List AclSlot) (result : AtmosUtil.AclArray) :
    AtmosUtil.parseAclHeaders rest headers (slots, 0) = some result ↔
      (AclFieldsFit rest headers ∧ (aclItems rest headers).length ≤ slots.length) ∧
      (List.zipWith storeAcl (aclItems rest headers) slots ++
        slots.drop (aclItems rest headers).length, (aclItems rest headers).length) =
          result := by
  rw [AtmosUtil.parseAclHeaders]
  by_cases hfitsUser : AllFields AclFieldFits (aclFields rest headers atmosHeaderUserAcl)
  · rw [parseAclHeader_of_fits rest headers _ .user _ hfitsUser]
    by_cases hfitsGroup : AllFields AclFieldFits (aclFields rest headers atmosHeaderGroupAcl)
    · have hgroup := fun array =>
        parseAclHeader_of_fits rest headers _ .group array hfitsGroup
      simp only [hgroup]
      rw [← List.foldlM_append, ← aclItems, foldlM_appendSlot _ _ (Nat.zero_le _)]
      by_cases hroom : (aclItems rest headers).length ≤ slots.length
      · simp [hroom, AclFieldsFit, hfitsUser, hfitsGroup]
      · simp [hroom]
    · have hgroup := fun array =>
        parseAclHeader_of_not_fits rest headers _ .group array hfitsGroup
      simp [hgroup, AclFieldsFit, hfitsGroup]
  · rw [parseAclHeader_of_not_fits rest headers _ .user _ hfitsUser]
    simp [AclFieldsFit, hfitsUser]

/-- The string a principal field holds after the truncating copy. -/
def storedPrincipal (principal : CStr) : CStr :=
  (principal.take (atmosUidMax - 1)).takeWhile (· != 0)

theorem storedPrincipal_of_fits {principal : CStr} (hnul : 0 ∉ principal)
    (hlength : principal.length < atmosUidMax) : storedPrincipal principal = principal := by
  rw [storedPrincipal, List.take_of_length_le (by omega), takeWhile_ne_zero hnul]

/-- What a slot shows after a store: the principal and the type of the item,
and its permission if the token names one. -/
theorem view_storeAcl (item : AclItem) (slot : AclSlot) :
    (storeAcl item slot).view = some
      { principal := storedPrincipal item.principal
        type := item.type
        permission := (AtmosUtil.permissionOf item.token).getD slot.permission } := by
  have hfits : 0 + (item.principal.take (atmosUidMax - 1) ++ [0]).length ≤ atmosUidMax := by
    have hle : (item.principal.take 254).length ≤ 254 := List.length_take_le _ _
    rw [List.length_append, Nat.zero_add]
    exact Nat.succ_le_succ hle
  have hread := slot.principal.put_cstrAt (item.principal.take (atmosUidMax - 1)) hfits
  simp only [AclSlot.view, storeAcl, strlcpy, hread, Option.map_some]
  rfl

end Atmos
