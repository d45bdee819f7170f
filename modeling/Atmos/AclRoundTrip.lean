import Atmos.AclHeaders

/-!
# Access control entries survive the headers

The headers `AtmosUtil_set_acl_header` adds are read back by
`AtmosUtil_parse_acl_headers` as the user entries followed by the entries of
the group `other`.

* `SendableAcl` — what a principal must be like to be read back;
* `pieces_aclValue` — the pieces of one header hold the entries it was written
  for;
* `acl_round_trip` — both headers together.
-/

namespace Atmos

open ByteText FixedMemory AtmosUtil

/-- An entry whose text in a header reads back. -/
structure SendableAcl (entry : AtmosAclEntry) : Prop where
  comma : comma ∉ entry.principal
  equals : equals ∉ entry.principal
  head : entry.principal.head? ≠ some space
  nul : 0 ∉ entry.principal
  length : entry.principal.length ≤ 254
  permission : ∀ code, entry.permission ≠ .invalid code

/-- The token of an entry's permission. -/
def aclToken (entry : AtmosAclEntry) : CStr :=
  (getPermissionString entry.permission).getD []

/-- The item the reader finds for an entry. -/
def sentItem (entry : AtmosAclEntry) : AclItem :=
  { type := entry.type, principal := entry.principal, token := aclToken entry }

theorem getPermissionString_isSome {permission : AclPermission}
    (h : ∀ code, permission ≠ .invalid code) :
    (getPermissionString permission).isSome := by
  cases permission with
  | invalid code => exact absurd rfl (h code)
  | _ => rfl

/-- The tokens are short and free of delimiters. -/
theorem aclToken_shape (entry : AtmosAclEntry) :
    ByteText.comma ∉ aclToken entry ∧ (aclToken entry).head? ≠ some space ∧
      (aclToken entry).length ≤ 12 := by
  rw [aclToken]
  cases entry.permission with
  | invalid code => exact ⟨by simp [getPermissionString], by simp [getPermissionString],
      Nat.zero_le _⟩
  | _ => decide

/-! ## One header -/

section Line

variable {entry : AtmosAclEntry} (h : SendableAcl entry)

include h

theorem SendableAcl.item : aclItem entry.type (aclText entry) = sentItem entry := by
  have hname := entryName_append h.equals h.head (aclToken entry)
  have hvalue := entryValue_append h.equals (aclToken_shape entry).2.1
  rw [aclItem, aclText, ← aclToken, hname, hvalue]
  rfl

theorem SendableAcl.text_comma : ByteText.comma ∉ aclText entry := by
  intro hmem
  rcases List.mem_append.mp hmem with hmem | hmem
  · exact h.comma hmem
  · rcases List.mem_cons.mp hmem with heq | hmem
    · exact absurd heq (by decide)
    · exact (aclToken_shape entry).1 hmem

theorem SendableAcl.text_head : (aclText entry).head? ≠ some space := by
  have hhead := h.head
  rw [aclText]
  cases hprincipal : entry.principal with
  | nil =>
      intro heq
      exact absurd (Option.some.inj heq) (by decide)
  | cons b s =>
      rw [hprincipal] at hhead
      exact hhead

/-- The text fits the reader's buffers, with or without the space that
precedes it. -/
theorem SendableAcl.fits (last : Bool) :
    AclFieldFits (aclText entry) last ∧ AclFieldFits (space :: aclText entry) last := by
  have hname := entryName_append h.equals h.head (aclToken entry)
  have hvalue := entryValue_append h.equals (aclToken_shape entry).2.1
  have hlength := h.length
  have htoken := (aclToken_shape entry).2.2
  have htext : (aclText entry).length < 510 := by
    rw [aclText, ← aclToken, List.length_append, List.length_cons]
    omega
  have hnameFits : (entryName (aclText entry)).length < 255 := by
    rw [aclText, ← aclToken, hname]
    omega
  have hvalueFits : (entryValue (aclText entry)).length < 255 := by
    rw [aclText, ← aclToken, hvalue]
    omega
  constructor
  · exact ⟨fun _ => htext.trans (by decide), hnameFits, hvalueFits⟩
  · refine ⟨fun _ => Nat.succ_lt_succ htext, ?_, ?_⟩
    · rw [entryName_space]
      exact hnameFits
    · rw [entryValue_space]
      exact hvalueFits

end Line

/-- **The pieces of a header value** fit the reader's buffers and hold the
entries it was written for. -/
theorem pieces_aclValue {entries : List AtmosAclEntry} (hne : entries ≠ [])
    (h : ∀ e ∈ entries, SendableAcl e) {type : AclPrincipalType}
    (htype : ∀ e ∈ entries, e.type = type) :
    AllFields AclFieldFits ((aclValue entries).splitOn comma) ∧
      ((aclValue entries).splitOn comma).map (aclItem type) = entries.map sentItem := by
  obtain ⟨entry, tail, rfl⟩ := List.exists_cons_of_ne_nil hne
  have hglue : bytes ", " = comma :: [space] := by decide
  have hpieces : (aclValue (entry :: tail)).splitOn comma =
      aclText entry :: (tail.map aclText).map ([space] ++ ·) := by
    rw [aclValue, List.map_cons, hglue, intercalate_glue]
    apply List.splitOn_intercalate comma _ (by simp)
    intro piece hpiece
    rcases List.mem_cons.mp hpiece with rfl | hpiece
    · exact (h entry (by simp)).text_comma
    · obtain ⟨text, htext, rfl⟩ := List.mem_map.mp hpiece
      obtain ⟨e, he, rfl⟩ := List.mem_map.mp htext
      have hcomma := (h e (List.mem_cons_of_mem _ he)).text_comma
      intro hmem
      rcases List.mem_append.mp hmem with hmem | hmem
      · exact absurd hmem (by decide)
      · exact hcomma hmem
  rw [hpieces]
  constructor
  · apply allFields_of_forall
    intro piece hpiece last
    rcases List.mem_cons.mp hpiece with rfl | hpiece
    · exact ((h entry (by simp)).fits last).1
    · obtain ⟨text, htext, rfl⟩ := List.mem_map.mp hpiece
      obtain ⟨e, he, rfl⟩ := List.mem_map.mp htext
      exact ((h e (List.mem_cons_of_mem _ he)).fits last).2
  · rw [List.map_cons, List.map_cons, List.map_map, List.map_map]
    congr 1
    · rw [← (h entry (by simp)).item, htype entry (by simp)]
    · apply List.map_congr_left
      intro e he
      have hspace : aclItem type ([space] ++ aclText e) = aclItem type (aclText e) := by
        simp [aclItem]
      rw [Function.comp_apply, Function.comp_apply, hspace,
        ← (h e (List.mem_cons_of_mem _ he)).item, htype e (List.mem_cons_of_mem _ he)]

/-- The first byte of a header value is no space. -/
theorem head_aclValue {entries : List AtmosAclEntry} (hne : entries ≠ [])
    (h : ∀ e ∈ entries, SendableAcl e) : (aclValue entries).head? ≠ some space := by
  obtain ⟨entry, tail, rfl⟩ := List.exists_cons_of_ne_nil hne
  have hhead := (h entry (by simp)).text_head
  have htext : aclText entry ≠ [] := by simp [aclText]
  obtain ⟨b, s, hbs⟩ := List.exists_cons_of_ne_nil htext
  rw [hbs] at hhead
  rw [aclValue, List.map_cons, hbs]
  cases tail with
  | nil => exact hhead
  | cons e tail =>
      rw [List.map_cons, List.intercalate_cons_cons]
      exact hhead

/-! ## Both headers -/

/-- The header lines the writer adds. -/
def aclLines (acl : List AtmosAclEntry) : List CStr :=
  (aclLine atmosHeaderUserAcl (aclUsers acl)).toList ++
    (aclLine atmosHeaderGroupAcl (aclOthers acl)).toList

/-- The reader finds the value of either header, if it was added. -/
theorem getHeaderValue_aclLines (rest : RestClient) {acl : List AtmosAclEntry}
    (husers : ∀ e ∈ aclUsers acl, SendableAcl e)
    (hothers : ∀ e ∈ aclOthers acl, SendableAcl e) :
    rest.getHeaderValue (aclLines acl) atmosHeaderUserAcl =
        (if aclUsers acl = [] then none else some (aclValue (aclUsers acl))) ∧
      rest.getHeaderValue (aclLines acl) atmosHeaderGroupAcl =
        (if aclOthers acl = [] then none else some (aclValue (aclOthers acl))) := by
  have huser : colon ∉ atmosHeaderUserAcl := by decide
  have hgroup : colon ∉ atmosHeaderGroupAcl := by decide
  have hne : ¬ ByteText.lowercase atmosHeaderUserAcl =
      ByteText.lowercase atmosHeaderGroupAcl := by decide
  rw [aclLines, aclLine, aclLine]
  by_cases hu : aclUsers acl = [] <;> by_cases ho : aclOthers acl = []
  · simp [hu, ho, rest.getHeaderValue_nil]
  · have hvalue := rest.headerValue_headerLine hgroup (head_aclValue ho hothers)
    simp [hu, ho, rest.getHeaderValue_nil, rest.getHeaderValue_cons,
      nameIs_headerLine hgroup, Ne.symm hne, hvalue]
  · have hvalue := rest.headerValue_headerLine huser (head_aclValue hu husers)
    simp [hu, ho, rest.getHeaderValue_nil, rest.getHeaderValue_cons,
      nameIs_headerLine huser, hne, hvalue]
  · have hvalue := rest.headerValue_headerLine huser (head_aclValue hu husers)
    have hvalue' := rest.headerValue_headerLine hgroup (head_aclValue ho hothers)
    simp [hu, ho, rest.getHeaderValue_cons, nameIs_headerLine huser,
      nameIs_headerLine hgroup, hne, hvalue, hvalue']

/-- The pieces of one header and the items in them, whether it was added or
not. -/
theorem aclFields_of_value (rest : RestClient) {headers : List CStr} {name : CStr}
    {entries : List AtmosAclEntry} {type : AclPrincipalType}
    (h : ∀ e ∈ entries, SendableAcl e) (htype : ∀ e ∈ entries, e.type = type)
    (hvalue : rest.getHeaderValue headers name =
      if entries = [] then none else some (aclValue entries)) :
    AllFields AclFieldFits (aclFields rest headers name) ∧
      (aclFields rest headers name).map (aclItem type) = entries.map sentItem := by
  rw [aclFields, hvalue]
  by_cases hne : entries = []
  · rw [if_pos hne, hne]
    exact ⟨trivial, rfl⟩
  · rw [if_neg hne]
    exact pieces_aclValue hne h htype

/-- A stored item shows the entry it was written for. -/
theorem view_storeAcl_sentItem {entry : AtmosAclEntry} (h : SendableAcl entry)
    (slot : AclSlot) : (storeAcl (sentItem entry) slot).view = some entry := by
  obtain ⟨token, htoken⟩ := Option.isSome_iff_exists.mp
    (getPermissionString_isSome h.permission)
  have hlength : entry.principal.length < atmosUidMax := Nat.lt_succ_of_le h.length
  have hview := view_storeAcl (sentItem entry) slot
  have hprincipal : storedPrincipal (sentItem entry).principal = entry.principal :=
    storedPrincipal_of_fits h.nul hlength
  have hperm : permissionOf (sentItem entry).token = some entry.permission := by
    rw [sentItem, aclToken, htoken]
    exact permissionOf_getPermissionString htoken
  rw [hview, hperm, hprincipal]
  rfl

/-- No entry goes into both headers. -/
theorem length_aclUsers_add (acl : List AtmosAclEntry) :
    (aclUsers acl).length + (aclOthers acl).length ≤ acl.length := by
  induction acl with
  | nil => exact le_rfl
  | cons entry acl ih =>
      rw [aclUsers, aclOthers] at ih ⊢
      rw [List.filter_cons, List.filter_cons]
      cases htype : entry.type <;> simp <;> grind

/-- **Access control round trip.**  Of at most 64 entries with sendable user
principals the reader finds exactly the user entries, in order, followed by
the entries of the group `other`, in order; a class without entries adds no
header. -/
theorem acl_round_trip (rest : RestClient) {acl : List AtmosAclEntry}
    (request : RestRequest) {slots : List AclSlot} (hcount : acl.length ≤ 64)
    (hpermission : ∀ e ∈ acl, ∀ code, e.permission ≠ .invalid code)
    (huser : ∀ e ∈ acl, e.type = .user → comma ∉ e.principal ∧ equals ∉ e.principal ∧
      e.principal.head? ≠ some space ∧ 0 ∉ e.principal ∧ e.principal.length ≤ 254)
    (hslots : slots.length = atmosAclCountMax) :
    setAclHeader acl request =
        some { request with headers := request.headers ++ aclLines acl } ∧
    (aclUsers acl = [] → ∀ line ∈ aclLines acl, nameIs atmosHeaderUserAcl line = false) ∧
    (aclOthers acl = [] → ∀ line ∈ aclLines acl, nameIs atmosHeaderGroupAcl line = false) ∧
    ∃ stored, parseAclHeaders rest (aclLines acl) (slots, 0) =
        some (stored ++ slots.drop (aclUsers acl ++ aclOthers acl).length,
          (aclUsers acl ++ aclOthers acl).length) ∧
      stored.map AclSlot.view = (aclUsers acl ++ aclOthers acl).map some := by
  have husers : ∀ e ∈ aclUsers acl, SendableAcl e ∧ e.type = .user := by
    intro e he
    obtain ⟨hmem, hu⟩ := List.mem_filter.mp he
    have hu : e.type = .user := by simpa using hu
    obtain ⟨hc, heq, hh, hn, hl⟩ := huser e hmem hu
    exact ⟨⟨hc, heq, hh, hn, hl, hpermission e hmem⟩, hu⟩
  have hothers : ∀ e ∈ aclOthers acl, SendableAcl e ∧ e.type = .group := by
    intro e he
    obtain ⟨hmem, ho⟩ := List.mem_filter.mp he
    have ho : e.type = .group ∧ e.principal = atmosAclGroupOther := by simpa using ho
    obtain ⟨hg, hp⟩ := ho
    refine ⟨⟨?_, ?_, ?_, ?_, ?_, hpermission e hmem⟩, hg⟩ <;> rw [hp] <;> decide
  have hsend : ∀ e ∈ aclUsers acl ++ aclOthers acl, SendableAcl e := by
    intro e he
    rcases List.mem_append.mp he with he | he
    · exact (husers e he).1
    · exact (hothers e he).1
  obtain ⟨hvalue, hvalue'⟩ := getHeaderValue_aclLines rest
    (fun e he => (husers e he).1) (fun e he => (hothers e he).1)
  obtain ⟨hfits, hitems⟩ := aclFields_of_value rest (fun e he => (husers e he).1)
    (fun e he => (husers e he).2) hvalue
  obtain ⟨hfits', hitems'⟩ := aclFields_of_value rest (fun e he => (hothers e he).1)
    (fun e he => (hothers e he).2) hvalue'
  have hall : aclItems rest (aclLines acl) = (aclUsers acl ++ aclOthers acl).map sentItem := by
    rw [aclItems, hitems, hitems', List.map_append]
  have hroom : (aclUsers acl ++ aclOthers acl).length ≤ slots.length := by
    have hle := length_aclUsers_add acl
    rw [List.length_append, hslots]
    exact hle.trans hcount
  obtain ⟨written, hwritten⟩ := Option.isSome_iff_exists.mp (setAclHeader_isSome
    (fun e he => getPermissionString_isSome (hpermission e he)) request)
  rw [hwritten, setAclHeader_eq_some hwritten]
  refine ⟨rfl, ?_, ?_, ?_⟩
  · intro hnil line hline
    simp only [aclLines, aclLine, hnil, if_true, Option.toList_none, List.nil_append] at hline
    split at hline
    · cases hline
    · rw [Option.toList_some, List.mem_singleton] at hline
      rw [hline, nameIs_headerLine (by decide)]
      decide
  · intro hnil line hline
    simp only [aclLines, aclLine, hnil, if_true, Option.toList_none, List.append_nil] at hline
    split at hline
    · cases hline
    · rw [Option.toList_some, List.mem_singleton] at hline
      rw [hline, nameIs_headerLine (by decide)]
      decide
  · have hparse := (parseAclHeaders_eq rest (aclLines acl) slots _).mpr
      ⟨⟨⟨hfits, hfits'⟩, by rw [hall, List.length_map]; exact hroom⟩, rfl⟩
    rw [hall, List.length_map] at hparse
    refine ⟨_, hparse, ?_⟩
    rw [map_zipWith_store storeAcl
      (fun e he slot => view_storeAcl_sentItem (hsend e he) slot) hroom, List.map_id']

/-- An unused slot of an array that has been zeroed. -/
private def zeroedAclSlot : AclSlot := zeroedAcl

/-- Users and groups in turn, one of the groups not the group `other`. -/
private def mixedAcl : List AtmosAclEntry :=
  [⟨bytes "fred", .user, .read⟩, ⟨bytes "other", .group, .full⟩,
    ⟨bytes "admins", .group, .read⟩, ⟨bytes "mary", .user, .readWrite⟩]

theorem acl_round_trip_mixed :
    ∃ stored, parseAclHeaders RestClient.plain (aclLines mixedAcl)
        (List.replicate atmosAclCountMax zeroedAclSlot, 0) =
        some (stored ++ (List.replicate atmosAclCountMax zeroedAclSlot).drop
          (aclUsers mixedAcl ++ aclOthers mixedAcl).length,
          (aclUsers mixedAcl ++ aclOthers mixedAcl).length) ∧
      stored.map AclSlot.view = (aclUsers mixedAcl ++ aclOthers mixedAcl).map some := by
  have hpermission : ∀ e ∈ mixedAcl, ∀ code, e.permission ≠ .invalid code := by
    intro e he code
    simp only [mixedAcl, List.mem_cons, List.not_mem_nil, or_false] at he
    rcases he with rfl | rfl | rfl | rfl <;> exact AclPermission.noConfusion
  obtain ⟨-, -, -, hread⟩ := acl_round_trip RestClient.plain
    (RestRequest.init (bytes "/rest/objects") .post) (by decide) hpermission (by decide)
    List.length_replicate
  exact hread

end Atmos
