import Atmos.ObjectAddressing

/-!
# Relative paths

The `…_init_ns` functions reject a path that does not start with `/`: they
return NULL and leave the request object as it was.  The operations that make
their own request have it on the stack, and go on with it whatever the function
returned.  Other operations on a path write the URI themselves and do not look
at the path.

* `outcome_of_ignoresResult` — the former run their chain on an object that was
  never initialised;
* `outcome_of_checksNothing` — the latter send the path as it is;
* `relative_path_outcome` — so no operation returns without running its chain.
-/

namespace Atmos

open ByteText FixedMemory FilterChain

/-- How far an operation gets before its chain runs. -/
inductive Outcome where
  /-- It returns without running a chain. -/
  | returned
  /-- It runs into undefined behaviour while it makes the request. -/
  | undefined
  /-- It runs a chain on a request object, or on an object that was never
  initialised. -/
  | executed (request : Option AtmosRequest) (chain : List RestFilter)
  deriving DecidableEq, Repr

/-- An operation that initialises its request, or is given one. -/
def Outcome.ofCall : Option Call → Outcome
  | some call => .executed (some call.request) call.chain
  | none => .undefined

namespace AtmosClient

/-- The body of an operation with a request on its stack: `request` is the
object after the `…_init_ns` function, whose result is not looked at. -/
def executeOnStack (request : Option AtmosRequest) (prepare : AtmosRequest → AtmosRequest)
    (filters : List RestFilter) : Outcome :=
  .executed (request.map prepare) (filters.foldl add (addDefaultFilters []))

end AtmosClient

open Operation AtmosClient in
/-- What an operation does with its arguments. -/
def Operation.outcome (env : Env) : Operation → Outcome
  | createObjectSimpleNs path data contentType =>
      executeOnStack (AtmosCreateObjectRequest.initNs path) (setArrayBody · data contentType)
        [.parseCreateResponse, .setWriteHeaders]
  | createObjectFileNs path f contentLength contentType =>
      executeOnStack (AtmosCreateObjectRequest.initNs path)
        (setFileBody · f contentLength contentType) [.parseCreateResponse, .setWriteHeaders]
  | readObjectSimpleNs path =>
      executeOnStack (AtmosReadObjectRequest.initNs path) id
        [.setReadObjectHeaders, .parseReadObjectResponse]
  | headObjectNs path =>
      executeOnStack (AtmosReadObjectRequest.initNsHead path) id
        [.setReadObjectHeaders, .parseReadObjectResponse]
  | getUserMetaSimpleNs path =>
      executeOnStack (AtmosGetUserMetaRequest.initNs path) id
        [.setGetUserMetaHeaders, .parseGetUserMetaResponse]
  | getSystemMetaSimpleNs path =>
      executeOnStack (AtmosGetSystemMetaRequest.initNs path) id [.getSystemMetadata]
  | updateObjectSimpleNs path data contentType =>
      executeOnStack (AtmosUpdateObjectRequest.initNs path)
        (setArrayBody · (updateData data) contentType) [.setWriteHeaders, .updateObject]
  | updateObjectFileNs path f contentLength contentType =>
      executeOnStack (AtmosUpdateObjectRequest.initNs path)
        (setFileBody · (updateFile f contentLength) contentLength contentType)
        [.setWriteHeaders, .updateObject]
  | op => .ofCall (op.call env)

/-- An operation that makes a call executes it. -/
theorem outcome_of_call {env : Env} {op : Operation} {call : Call}
    (h : op.call env = some call) : op.outcome env = .executed (some call.request) call.chain := by
  cases op with
  | createObjectSimpleNs | createObjectFileNs | readObjectSimpleNs | headObjectNs
  | getUserMetaSimpleNs | getSystemMetaSimpleNs | updateObjectSimpleNs | updateObjectFileNs =>
      obtain ⟨request, hrequest, rfl⟩ := Option.map_eq_some_iff.mp h
      rw [Operation.outcome, hrequest]
      rfl
  | _ => exact congrArg Outcome.ofCall h

/-! ## Operations that make their own request -/

/-- The operations that go on with a request whose `…_init_ns` function may
have rejected the path. -/
inductive IgnoresResult (path : CStr) : Operation → Prop
  | createObjectSimple (data : Option (List UInt8)) (contentType : Option CStr) :
      IgnoresResult path (.createObjectSimpleNs path data contentType)
  | createObjectFile (f : Option FileStream) (contentLength : Int) (contentType : Option CStr) :
      IgnoresResult path (.createObjectFileNs path f contentLength contentType)
  | readObjectSimple : IgnoresResult path (.readObjectSimpleNs path)
  | headObject : IgnoresResult path (.headObjectNs path)
  | getUserMetaSimple : IgnoresResult path (.getUserMetaSimpleNs path)
  | getSystemMetaSimple : IgnoresResult path (.getSystemMetaSimpleNs path)
  | updateObjectSimple (data : Option (List UInt8)) (contentType : Option CStr) :
      IgnoresResult path (.updateObjectSimpleNs path data contentType)
  | updateObjectFile (f : Option FileStream) (contentLength : Int) (contentType : Option CStr) :
      IgnoresResult path (.updateObjectFileNs path f contentLength contentType)

/-- The operations that write the URI themselves, with its format. -/
inductive ChecksNothing (path : CStr) : Operation → CStr → Prop
  | deleteObject :
      ChecksNothing path (.deleteObjectNs path) (namespaceUri (atmosPathMax + 16) path [])
  | deleteUserMeta (metaNames : List CStr) :
      ChecksNothing path (.deleteUserMetaNs path metaNames)
        (keypoolUri (atmosPathMax + 64) path (bytes "?metadata/user"))
  | getAcl :
      ChecksNothing path (.getAclNs path) (namespaceUri (atmosPathMax + 64) path (bytes "?acl"))
  | setAcl (acl : List AtmosAclEntry) :
      ChecksNothing path (.setAclNs path acl)
        (namespaceUri (atmosPathMax + 64) path (bytes "?acl"))
  | getObjectInfo :
      ChecksNothing path (.getObjectInfoNs path)
        (namespaceUri (atmosPathMax + 64) path (bytes "?info"))

/-- The operations on a path that make their own request. -/
def OneCallNamespace (path : CStr) (op : Operation) : Prop :=
  IgnoresResult path op ∨ ∃ uri, ChecksNothing path op uri

theorem initNs_eq_none {method : HttpMethod} {size : Nat} {suffix : CStr}
    {fields : RequestFields} {path : CStr} (h : path.head? ≠ some 47) :
    AtmosRequest.initNs method size suffix fields path = none := if_pos h

/-- **The check is made and ignored**: the chain runs on an object that nobody
has initialised. -/
theorem outcome_of_ignoresResult (env : Env) {path : CStr} {op : Operation}
    (hop : IgnoresResult path op) (hrelative : path.head? ≠ some 47) :
    ∃ chain, op.outcome env = .executed none chain := by
  cases hop <;>
  exact ⟨_, congrArg (AtmosClient.executeOnStack · _ _) (initNs_eq_none hrelative)⟩

/-- **There is no check**: the request that is executed names the path as it
is.  Only an invalid permission gets in the way. -/
theorem outcome_of_checksNothing (env : Env) {path uri : CStr} {op : Operation}
    (hop : ChecksNothing path op uri) :
    op.outcome env = .undefined ∨ ∃ request chain,
      op.outcome env = .executed (some request) chain ∧ request.parent.uri = uri := by
  cases hcall : op.call env with
  | none =>
      left
      cases hop with
      | setAcl acl => exact congrArg Outcome.ofCall hcall
      | deleteObject | deleteUserMeta metaNames | getAcl | getObjectInfo => cases hcall
  | some call =>
      right
      refine ⟨call.request, call.chain, outcome_of_call hcall, ?_⟩
      cases hop with
      | setAcl acl =>
          obtain ⟨request, h, heq⟩ := Option.bind_eq_some_iff.mp hcall
          cases heq
          exact (setAclHeaders_eq_some h).1
      | deleteUserMeta metaNames =>
          cases hcall
          exact congrArg RestRequest.uri (deletedMetaHeaders_eq env metaNames _)
      | deleteObject | getAcl | getObjectInfo =>
          cases hcall
          rfl

/-- **Relative paths.**  For a path that does not start with `/`, no operation
that makes its own request returns without running its chain: the chain runs on
an object that was never initialised, or on a request that names the path. -/
theorem relative_path_outcome (env : Env) {path : CStr} (hrelative : path.head? ≠ some 47)
    {op : Operation} (hop : OneCallNamespace path op) :
    op.outcome env ≠ .returned ∧
      (IgnoresResult path op → ∃ chain, op.outcome env = .executed none chain) ∧
      ∀ uri, ChecksNothing path op uri → op.outcome env = .undefined ∨
        ∃ request chain, op.outcome env = .executed (some request) chain ∧
          request.parent.uri = uri := by
  refine ⟨?_, fun h => outcome_of_ignoresResult env h hrelative,
    fun uri h => outcome_of_checksNothing env h⟩
  rcases hop with hignores | ⟨uri, hnothing⟩
  · obtain ⟨chain, hchain⟩ := outcome_of_ignoresResult env hignores hrelative
    rw [hchain]
    exact Outcome.noConfusion
  · rcases outcome_of_checksNothing env hnothing with hundefined | ⟨request, chain, hsent, -⟩
    · rw [hundefined]
      exact Outcome.noConfusion
    · rw [hsent]
      exact Outcome.noConfusion

theorem relative_path_outcome_notes :
    ∃ chain, Operation.outcome readerEnv (.readObjectSimpleNs (bytes "notes.txt")) =
      .executed none chain :=
  (relative_path_outcome readerEnv (by decide) (Or.inl .readObjectSimple)).2.1 .readObjectSimple

/-- Reading a relative path runs the chain on an uninitialised object, and
deleting one sends the request with the path behind `namespace`. -/
theorem relative_path_notes :
    (∃ chain, Operation.outcome readerEnv (.readObjectSimpleNs (bytes "notes.txt")) =
      .executed none chain ∧ RestFilter.executeCurlRequest ∈ chain) ∧
    ∃ request chain, Operation.outcome readerEnv (.deleteObjectNs (bytes "notes.txt")) =
      .executed (some request) chain ∧
        request.parent.uri = bytes "/rest/namespacenotes.txt" ∧
        RestFilter.executeCurlRequest ∈ chain :=
  ⟨⟨_, rfl, by decide⟩, _, _, rfl, by decide, by decide⟩

end Atmos
