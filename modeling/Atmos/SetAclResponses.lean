import Atmos.UnparsedFailures

/-!
# The response of `set_acl`

`AtmosClient_set_acl` and its two variants put the filter of `get_acl` into
their chain, but their caller passes an `AtmosResponse`, which has no array of
access control entries.  The filter writes to that array when the server sends
one of the two headers.

* `setAcl_keepsToResponse` — the operations stay within the response exactly
  when the server sends neither, and no error message is too long.
-/

namespace Atmos

open ByteText FixedMemory FilterChain XmlTree AtmosUtil

/-- The way back accesses no field that the response does not have, and writes
nothing outside of its fields. -/
def KeepsToResponse (env : ReplyEnv) (call : Call) (reply : Reply) (response : Response) : Prop :=
  call.receive env reply response ≠ .error .foreignField ∧
    call.receive env reply response ≠ .error .overflow

/-- The message of an error that is parsed is shorter than its field. -/
def MessageFits (env : ReplyEnv) (reply : Reply) : Prop :=
  399 < reply.httpCode → ∀ doc, AtmosFilter.After.errorDocument env reply = some doc →
    ∀ message, errorMessage env.xml doc = some message → message.length < atmosErrorMax

section SetAcl

variable {env : ReplyEnv} {reply : Reply}

/-- The requests of these operations have a body in their answer. -/
theorem method_of_setAcl {op : Operation} {call : Call} (hop : op.family = .setAcl)
    (hcall : op.call env.toEnv = some call) : call.request.parent.method = .post := by
  have hmethod : ∀ {uri acl request}, AtmosClient.setAclHeaders acl (RestRequest.init uri .post) =
      some request → request.method = .post := by
    intro uri acl request h
    rw [AtmosClient.setAclHeaders] at h
    rw [setAclHeader_eq_some h]
    rfl
  cases op with
  | setAcl objectId acl | setAclNs path acl | setAclKeypool pool key acl =>
      obtain ⟨request, hrequest, hcall⟩ := Option.bind_eq_some_iff.mp hcall
      obtain rfl := Option.some.inj hcall
      have hpost : request.method = .post := hmethod hrequest
      exact hpost
  | _ => cases hop

/-- A parser without a result has left its field, and done nothing else. -/
theorem within_map_faults {α β : Type} (result : Option α) (f : α → β) :
    (within result).map f ≠ .error .foreignField ∧
      ((within result).map f ≠ .error .overflow ↔ result.isSome) := by
  cases result with
  | none => simp [within, Except.map]
  | some a => simp [within, Except.map]

/-- The error filter leaves the fields only with a message that is too long. -/
theorem afterErrors_post {response : Response}
    (hclass : response.parent.isRestResponse = false) :
    afterErrors env reply .post response ≠ .error .foreignField ∧
      (afterErrors env reply .post response ≠ .error .overflow ↔ MessageFits env reply) := by
  change AtmosFilter.After.parseAtmosError env reply .post _ ≠ _ ∧
    (AtmosFilter.After.parseAtmosError env reply .post _ ≠ _ ↔ _)
  unfold AtmosFilter.After.parseAtmosError MessageFits
  rw [if_neg (by decide)]
  split
  · rename_i herror
    cases hdoc : AtmosFilter.After.errorDocument env reply with
    | none =>
        rw [Option.elim_none]
        split <;> simp
    | some doc =>
        rw [Option.elim_some, if_neg fun h => Bool.noConfusion (hclass.symm.trans h.1)]
        have hfaults := within_map_faults (AtmosResponse.parseError env.xml doc
          { response.parent with
            httpCode := reply.httpCode
            httpStatus := reply.httpStatus }) fun parent => { response with parent }
        rw [AtmosResponse.parseError_isSome_iff] at hfaults
        refine ⟨hfaults.1, hfaults.2.trans ?_⟩
        simp [herror]
  · rename_i herror
    simp [herror]

/-- The filter of `get_acl`, on a response without an array. -/
theorem parseGetAcl_atmosResponse {parent : AtmosResponse} (hcode : parent.httpCode ≤ 299) :
    AtmosFilter.After.parseGetAclResponse env reply ⟨parent, .atmosResponse⟩ =
      if (reply.getHeaderValue env atmosHeaderUserAcl).isSome ∨
        (reply.getHeaderValue env atmosHeaderGroupAcl).isSome then .error .foreignField
      else .ok ⟨parent, .atmosResponse⟩ := by
  rw [AtmosFilter.After.parseGetAclResponse, parseUnless, if_neg (by simp [aboveSuccess]; omega)]
  dsimp only
  split <;> rfl

/-- **What `set_acl` does to its response.**  It keeps to the fields exactly when
a successful or early response has no header with access control entries, and
the message of an error is shorter than its field. -/
theorem setAcl_keepsToResponse {op : Operation} {call : Call} (hop : op.family = .setAcl)
    (hcall : op.call env.toEnv = some call) {response : Response}
    (hdata : response.data = .atmosResponse) (hclass : response.parent.isRestResponse = false) :
    KeepsToResponse env call reply response ↔
      (reply.httpCode ≤ 299 → reply.getHeaderValue env atmosHeaderUserAcl = none ∧
        reply.getHeaderValue env atmosHeaderGroupAcl = none) ∧ MessageFits env reply := by
  unfold KeepsToResponse
  by_cases hcode : reply.httpCode ≤ 299
  · have hfits : ErrorFits env call.request.parent.method reply := by
      intro _ herror
      omega
    have hmessage : MessageFits env reply := by
      intro herror
      omega
    obtain ⟨⟨parent, data⟩, hmiddle⟩ := (afterErrors_isOk_iff env reply _ hclass).mpr hfits
    obtain ⟨hparent, hdata'⟩ := afterErrors_eq_ok env reply hmiddle
    obtain rfl : data = .atmosResponse := hdata'.trans hdata
    have hreceive : call.receive env reply response =
        AtmosFilter.After.parseGetAclResponse env reply ⟨parent, .atmosResponse⟩ := by
      rw [receive_eq env reply hcall, hmiddle, hop]
      exact bind_pure (AtmosFilter.After.parseGetAclResponse env reply ⟨parent, .atmosResponse⟩)
    rw [hreceive, parseGetAcl_atmosResponse (hparent.trans_le hcode)]
    simp only [hcode, hmessage, forall_const, and_true, ← Option.not_isSome_iff_eq_none,
      ← not_or]
    split
    · rename_i hheader
      simp [hheader]
    · rename_i hheader
      simp [hheader]
  · have hfailed : op.family.failed reply.httpCode = true := failed_of_above (by omega) _
    obtain ⟨hforeign, hoverflow⟩ := @afterErrors_post env reply response hclass
    rw [receive_of_failed env reply hcall hfailed, method_of_setAcl hop hcall, hoverflow]
    simp [hforeign, hcode]

end SetAcl

/-- Bob may read an object. -/
def aclForBob : List AtmosAclEntry := [⟨bytes "bob", .user, .read⟩]

/-- The operation that says so. -/
def setAclForBob : Operation := .setAcl (bytes "4ee696e4a41f549804f0b909b6ade1") aclForBob

/-- Its call. -/
def callForBob : Call := (setAclForBob.call blindEnv.toEnv).get (by decide)

/-- A successful answer with some headers. -/
def answer (headers : List CStr) : Reply where
  httpCode := 200
  httpStatus := bytes "OK"
  headers := headers
  body := none
  contentLength := 0
  fileBody := none

theorem setAcl_keepsToResponse_bob :
    KeepsToResponse blindEnv callForBob (answer []) ⟨.init .atmosResponse, .atmosResponse⟩ := by
  have hcall : setAclForBob.call blindEnv.toEnv = some callForBob := (Option.some_get _).symm
  refine (setAcl_keepsToResponse rfl hcall rfl rfl).mpr ⟨fun _ => ⟨rfl, rfl⟩, ?_⟩
  intro herror
  exact absurd herror (by decide)

/-- The header comes back and is stored behind the response. -/
theorem echoed_acl_leaves_response :
    ¬ KeepsToResponse blindEnv callForBob (answer [bytes "x-emc-useracl: bob=READ"])
      ⟨.init .atmosResponse, .atmosResponse⟩ := by
  intro h
  exact h.1 rfl

end Atmos
