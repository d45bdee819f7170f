import Atmos.ResponseAllocation

/-!
# The memory of a response

The pointers of a response beside its data, from its initialisation on, through any number of
answers, to its destruction.

* `receive_agrees` — the pointers follow the data;
* `response_memory` — nothing is freed twice, and when nothing is left.
-/

namespace Atmos

open ByteText FixedMemory XmlTree AtmosUtil BlockLedger

/-! ## Pointers and data -/

/-- The pointers of an entry are null where its arrays are empty. -/
def ObjectPointers.Agrees (self : ObjectPointers) (object : AtmosObjectMetadata) : Prop :=
  ∀ listable, (self.userArray listable).isSome = decide (0 < (Atmos.userArray listable object).2)

/-- The pointers of a response and its data: which arrays there are, with which entries. -/
def ResponsePointers.Agrees (self : ResponsePointers) : Operation.Family → ResponseData → Prop
  | .objectInfo, .getObjectInfo info => self.array.isSome = !info.replicas.isEmpty
  | .listDirectory, .listDirectory _ _ entries =>
      self.array.isSome = !entries.isEmpty ∧
        List.Forall₂ (fun pointers entry => pointers.Agrees entry.parent) self.objects entries
  | .listObjects, .listObjects _ results =>
      self.array.isSome = !results.isEmpty ∧
        List.Forall₂ (fun pointers entry => pointers.Agrees entry.parent) self.objects results
  | .listVersions, .listVersions _ versions => self.array.isSome = !versions.isEmpty
  | .listableTags, .getListableTags _ tags =>
      self.array.isSome = tags.isSome ∧ self.tags.length = (tags.getD []).length
  | _, _ => False

section Entries

variable {time : TimeLibrary} {curl : Curl} {xml : XmlText}

theorem length_userTexts {child : Node} {listable : Bool} {texts : List ListedText}
    (h : userTexts xml listable child = some texts) : 0 < texts.length := by
  cases child with
  | element name children =>
      rw [userTexts, Node.onElement] at h
      split at h
      · dsimp only at h
        split at h
        · cases h
        · rename_i hne
          obtain rfl := Option.some.inj h
          exact List.length_pos_of_ne_nil hne
      · cases h
  | _ => cases h

/-- The loop over the children of an entry. -/
theorem foldl_allocChild_agrees {ρ : Type} {step : ρ → Node → Option ρ}
    {view : ρ → AtmosObjectMetadata}
    (hstep : ∀ {entry entry' : ρ} {child : Node}, step entry child = some entry' →
      listStep time curl xml (view entry) child = some (view entry'))
    {children : List Node} {entry entry' : ρ} (h : children.foldlM step entry = some entry')
    {state : ObjectPointers × Heap} (hagrees : state.1.Agrees (view entry)) :
    (children.foldl (allocChild xml) state).1.Agrees (view entry') := by
  induction children generalizing entry state with
  | nil =>
      obtain rfl := Option.some.inj h
      exact hagrees
  | cons child children ih =>
      obtain ⟨next, hnext, hrest⟩ := Option.bind_eq_some_iff.mp h
      refine ih hrest fun listable => ?_
      rw [allocChild_userArray, hagrees listable,
        userArray_listStep time curl xml (hstep hnext) listable]
      cases htexts : userTexts xml listable child with
      | none => rfl
      | some texts => exact (decide_eq_true (length_userTexts htexts)).symm

/-- **The entries of a listing.** -/
theorem allocEntries_agrees {ρ : Type} {step : ρ → Node → Option ρ} {init : ρ}
    {view : ρ → AtmosObjectMetadata}
    (hstep : ∀ {entry entry' : ρ} {child : Node}, step entry child = some entry' →
      listStep time curl xml (view entry) child = some (view entry'))
    (hzero : view init = .zero) {nodes : List Node} {entries : List ρ}
    (h : nodes.mapM (fun node => node.children.foldlM step init) = some entries) (heap : Heap) :
    List.Forall₂ (fun pointers entry => pointers.Agrees (view entry))
      (allocEntries xml nodes heap).1 entries := by
  have hentries := forall₂_of_mapM h
  clear h
  induction hentries generalizing heap with
  | nil => exact .nil
  | cons hentry _ ih =>
      refine .cons (foldl_allocChild_agrees hstep hentry fun listable => ?_) (ih _)
      rw [hzero]
      cases listable <;> rfl

end Entries

section Steps

variable {env : ReplyEnv} {reply : Reply}

/-- A listing is left alone, or has the entries of its elements. -/
theorem readListing_eq_ok {α : Type} {parseEntry : List Node → Option α} {list entry : CStr}
    {old entries : List α}
    (h : readBody env reply old (fun doc =>
      within (parseListing env.xml doc list entry parseEntry old)) = .ok entries) :
    reply.entryNodes env list entry = [] ∧ entries = old ∨
      reply.entryNodes env list entry ≠ [] ∧
        (reply.entryNodes env list entry).mapM (fun node => parseEntry node.children) =
          some entries := by
  rw [Reply.entryNodes, Reply.document]
  cases hdoc : env.xml.readMemory reply.body reply.contentLength.toInt32 with
  | none =>
      rw [readBody, hdoc, Option.elim_none] at h
      left
      split at h
      · exact ⟨rfl, (Except.ok.inj h).symm⟩
      · cases h
  | some doc =>
      rw [readBody, hdoc, Option.elim_some, within_eq_ok, parseListing] at h
      rw [Option.elim_some, Atmos.entryNodes]
      split at h
      · rename_i hnone
        rw [if_pos hnone]
        exact .inl ⟨rfl, (Option.some.inj h).symm⟩
      · rename_i hlist
        rw [if_neg hlist]
        dsimp only at h
        split at h
        · rename_i hnil
          exact .inl ⟨hnil, (Option.some.inj h).symm⟩
        · rename_i hne
          exact .inr ⟨hne, h⟩

/-- The filters of a class with an array all make the same test. -/
theorem failed_eq_aboveSuccess {family : Operation.Family} (hfamily : family ∈ arrayFamilies)
    (httpCode : Int) : family.failed httpCode = aboveSuccess httpCode := by
  simp only [arrayFamilies, List.mem_cons, List.not_mem_nil, or_false] at hfamily
  rcases hfamily with rfl | rfl | rfl | rfl | rfl <;>
    simp [Operation.Family.failed, Operation.Family.filters, RestFilter.failed]

/-- The array of a listing that is read. -/
theorem isSome_array_of_mapM {α β : Type} {f : α → Option β} {nodes : List α} {entries : List β}
    (hne : nodes ≠ []) (h : nodes.mapM f = some entries) : entries.isEmpty = false := by
  cases forall₂_of_mapM h with
  | nil => exact absurd rfl hne
  | cons _ _ => rfl

/-- The replicas in a document replace the old ones, where there are any. -/
theorem AtmosGetObjectInfoResponse.replicas_of_parse {time : TimeLibrary} {xml : LibxmlReader}
    {doc : xml.Document} {self self' : AtmosGetObjectInfoResponse}
    (h : self.parse time xml doc = some self') :
    self'.replicas =
      if replicaCount xml doc = 0 then self.replicas
      else (List.range (replicaCount xml doc)).map (parseReplica xml doc) := by
  unfold parse at h
  obtain ⟨retentionEnd, -, h⟩ := Option.bind_eq_some_iff.mp h
  obtain ⟨expirationEnd, -, h⟩ := Option.bind_eq_some_iff.mp h
  obtain rfl := Option.some.inj h
  rfl

section Parsed

variable {parent : AtmosResponse} {data : ResponseData} {result : Response}
  {state : ResponsePointers × Heap}

theorem allocArray_of_nil {family : Operation.Family} {nodes : List Node} (h : nodes = [])
    (xml : XmlText) (state : ResponsePointers × Heap) : family.allocArray xml nodes state = state :=
  if_pos h

theorem parseGetInfoResponse_agrees (hpassed : aboveSuccess parent.httpCode = false)
    (h : AtmosFilter.After.parseGetInfoResponse env reply ⟨parent, data⟩ = .ok result)
    (hagrees : state.1.Agrees .objectInfo data) :
    (Operation.Family.allocArray env.xml.toXmlText .objectInfo (reply.arrayNodes env .objectInfo)
      state).1.Agrees .objectInfo result.data := by
  rw [AtmosFilter.After.parseGetInfoResponse, parseUnless_of_passed hpassed] at h
  obtain ⟨data', hdata, rfl⟩ := map_eq_ok.mp h
  cases data with
  | getObjectInfo self =>
      dsimp only at hdata ⊢
      rw [Reply.arrayNodes, Reply.document]
      cases hdoc : env.xml.readMemory reply.body reply.contentLength.toInt32 with
      | none =>
          rw [readBody, hdoc, Option.elim_none] at hdata
          split at hdata
          · obtain rfl := Except.ok.inj hdata
            exact hagrees
          · cases hdata
      | some doc =>
          rw [readBody, hdoc, Option.elim_some] at hdata
          obtain ⟨info, hinfo, rfl⟩ := map_eq_ok.mp hdata
          have hreplicas := AtmosGetObjectInfoResponse.replicas_of_parse (within_eq_ok.mp hinfo)
          rw [Option.elim_some]
          by_cases hnil : selectNodes env.xml doc (bytes "//cos:replicas/cos:replica") true = []
          · have hcount : AtmosGetObjectInfoResponse.replicaCount env.xml doc = 0 :=
              List.length_eq_zero_iff.mpr hnil
            rw [allocArray_of_nil hnil, ResponsePointers.Agrees, hreplicas, if_pos hcount]
            exact hagrees
          · have hcount : AtmosGetObjectInfoResponse.replicaCount env.xml doc ≠ 0 :=
              fun hzero => hnil (List.length_eq_zero_iff.mp hzero)
            rw [Operation.Family.allocArray, if_neg hnil, ResponsePointers.Agrees, hreplicas,
              if_neg hcount]
            simp [hcount]
  | _ => cases hagrees

/-- A listing whose entries have user metadata. -/
theorem allocArray_agrees {ρ : Type} {step : ρ → Node → Option ρ} {init : ρ}
    {view : ρ → AtmosObjectMetadata}
    (hstep : ∀ {entry entry' : ρ} {child : Node}, step entry child = some entry' →
      listStep env.time env.curl env.xml.toXmlText (view entry) child = some (view entry'))
    (hzero : view init = .zero) {family : Operation.Family}
    (hobjects : ∀ nodes heap, family.allocObjects env.xml.toXmlText nodes heap =
      allocEntries env.xml.toXmlText nodes heap) {list entry : CStr}
    (hnodes : reply.arrayNodes env family = reply.entryNodes env list entry) {old entries : List ρ}
    (h : readBody env reply old (fun doc => within
      (parseListing env.xml doc list entry (fun children => children.foldlM step init) old)) =
        .ok entries)
    (hagrees : state.1.array.isSome = !old.isEmpty ∧
      List.Forall₂ (fun pointers entry => pointers.Agrees (view entry)) state.1.objects old) :
    ∀ state', family.allocArray env.xml.toXmlText (reply.arrayNodes env family) state = state' →
      state'.1.array.isSome = !entries.isEmpty ∧
        List.Forall₂ (fun pointers entry => pointers.Agrees (view entry)) state'.1.objects
          entries := by
  rintro state' rfl
  rw [hnodes]
  rcases readListing_eq_ok h with ⟨hnil, rfl⟩ | ⟨hne, hentries⟩
  · rw [allocArray_of_nil hnil]
    exact hagrees
  · rw [Operation.Family.allocArray, if_neg hne]
    dsimp only
    rw [hobjects]
    exact ⟨by rw [isSome_array_of_mapM hne hentries]; rfl,
      allocEntries_agrees hstep hzero hentries _⟩

theorem listDirectory_agrees (hpassed : aboveSuccess parent.httpCode = false)
    (h : AtmosFilter.After.listDirectory env reply ⟨parent, data⟩ = .ok result)
    (hagrees : state.1.Agrees .listDirectory data) :
    (Operation.Family.allocArray env.xml.toXmlText .listDirectory
      (reply.arrayNodes env .listDirectory) state).1.Agrees .listDirectory result.data := by
  rw [AtmosFilter.After.listDirectory, parseUnless_of_passed hpassed] at h
  obtain ⟨data', hdata, rfl⟩ := map_eq_ok.mp h
  cases data with
  | listDirectory directory token old =>
      obtain ⟨entries, hentries, rfl⟩ := map_eq_ok.mp hdata
      exact allocArray_agrees (fun h => (AtmosDirectoryEntry.parseChild_eq_some h).1) rfl
        (fun _ _ => rfl) rfl hentries hagrees _ rfl
  | _ => cases hagrees

theorem listObjects_agrees (hpassed : aboveSuccess parent.httpCode = false)
    (h : AtmosFilter.After.listObjects env reply ⟨parent, data⟩ = .ok result)
    (hagrees : state.1.Agrees .listObjects data) :
    (Operation.Family.allocArray env.xml.toXmlText .listObjects
      (reply.arrayNodes env .listObjects) state).1.Agrees .listObjects result.data := by
  rw [AtmosFilter.After.listObjects, parseUnless_of_passed hpassed] at h
  obtain ⟨data', hdata, rfl⟩ := map_eq_ok.mp h
  cases data with
  | listObjects token old =>
      obtain ⟨results, hresults, rfl⟩ := map_eq_ok.mp hdata
      exact allocArray_agrees (fun h => (AtmosObjectListing.parseChild_eq_some h).1) rfl
        (fun _ _ => rfl) rfl hresults hagrees _ rfl
  | _ => cases hagrees

theorem listVersions_agrees (hpassed : aboveSuccess parent.httpCode = false)
    (h : AtmosFilter.After.listVersions env reply ⟨parent, data⟩ = .ok result)
    (hagrees : state.1.Agrees .listVersions data) :
    (Operation.Family.allocArray env.xml.toXmlText .listVersions
      (reply.arrayNodes env .listVersions) state).1.Agrees .listVersions result.data := by
  rw [AtmosFilter.After.listVersions, parseUnless_of_passed hpassed] at h
  obtain ⟨data', hdata, rfl⟩ := map_eq_ok.mp h
  cases data with
  | listVersions token old =>
      obtain ⟨versions, hversions, rfl⟩ := map_eq_ok.mp hdata
      rw [Reply.arrayNodes]
      rcases readListing_eq_ok hversions with ⟨hnil, rfl⟩ | ⟨hne, hversions⟩
      · rw [allocArray_of_nil hnil]
        exact hagrees
      · rw [Operation.Family.allocArray, if_neg hne, ResponsePointers.Agrees,
          isSome_array_of_mapM hne hversions]
        rfl
  | _ => cases hagrees

theorem getListableTags_agrees (hpassed : aboveSuccess parent.httpCode = false)
    (hcode : aboveSuccess reply.httpCode = false)
    (h : AtmosFilter.After.getListableTags env reply ⟨parent, data⟩ = .ok result)
    {held : List Nat} (haccounts : Accounts state.2 held)
    (hagrees : state.1.Agrees .listableTags data) :
    ∃ state', reply.allocate env .listableTags state = some state' ∧
      state'.1.Agrees .listableTags result.data := by
  rw [AtmosFilter.After.getListableTags, parseUnless_of_passed hpassed] at h
  obtain ⟨data', hdata, rfl⟩ := map_eq_ok.mp h
  cases data with
  | getListableTags token old =>
      obtain ⟨texts, htexts, rfl⟩ := map_eq_ok.mp hdata
      obtain ⟨filled, hfilled, -, hlength⟩ := TagPointers.fill_accounts haccounts texts.length
      unfold Reply.allocate
      rw [if_neg (Bool.eq_false_iff.mp hcode)]
      dsimp only
      rw [htexts]
      dsimp only
      rw [hfilled]
      exact ⟨_, rfl, rfl, hlength⟩
  | _ => cases hagrees

end Parsed

/-- **One answer**: where it is read, the pointers are written, and they agree with the data
again. -/
theorem receive_agrees {op : Operation} {call : Call} (hcall : op.call env.toEnv = some call)
    (hfamily : op.family ∈ arrayFamilies) {response result : Response}
    (h : call.receive env reply response = .ok result) {state : ResponsePointers × Heap}
    {held : List Nat} (haccounts : Accounts state.2 held)
    (hagrees : state.1.Agrees op.family response.data) :
    ∃ state', reply.allocate env op.family state = some state' ∧
      state'.1.Agrees op.family result.data := by
  cases hcode : aboveSuccess reply.httpCode with
  | true =>
      have hfailed := (failed_eq_aboveSuccess hfamily reply.httpCode).trans hcode
      rw [receive_of_failed env reply hcall hfailed] at h
      refine ⟨state, if_pos hcode, ?_⟩
      rwa [(afterErrors_eq_ok env reply h).2]
  | false =>
      obtain ⟨parent, hparent, heq⟩ := receive_eq_of_success hcall hcode response
      have hpassed : aboveSuccess parent.httpCode = false := hparent ▸ hcode
      rw [heq] at h
      generalize response.data = data at h hagrees
      generalize op.family = family at *
      simp only [arrayFamilies, List.mem_cons, List.not_mem_nil, or_false] at hfamily
      rcases hfamily with rfl | rfl | rfl | rfl | rfl
      · have hparse := (bind_pure _).symm.trans h
        exact ⟨_, allocate_of_array hcode (by decide),
          parseGetInfoResponse_agrees hpassed hparse hagrees⟩
      · cases data with
        | listDirectory directory token old =>
            have hfilters : Operation.Family.listDirectory.filters.filter (·.worksAfter) =
                [.parseReadObjectResponse, .listDirectory] := rfl
            rw [hfilters, List.foldlM_cons, RestFilter.after,
              AtmosFilter.After.parseReadObjectResponse, parseUnless_of_passed hpassed] at h
            dsimp only at h
            -- the metadata of the directory is read first, into fields that are no pointers
            cases hread : AtmosReadObjectResponse.parse env reply directory with
            | error fault =>
                rw [hread] at h
                cases h
            | ok self =>
                rw [hread] at h
                have hlist : AtmosFilter.After.listDirectory env reply
                    ⟨parent, .listDirectory self token old⟩ = .ok result :=
                  (bind_pure _).symm.trans h
                exact ⟨_, allocate_of_array hcode (by decide),
                  listDirectory_agrees hpassed hlist hagrees⟩
        | _ => cases hagrees
      · have hparse := (bind_pure _).symm.trans h
        exact getListableTags_agrees hpassed hcode hparse haccounts hagrees
      · have hparse := (bind_pure _).symm.trans h
        exact ⟨_, allocate_of_array hcode (by decide), listObjects_agrees hpassed hparse hagrees⟩
      · have hparse := (bind_pure _).symm.trans h
        exact ⟨_, allocate_of_array hcode (by decide), listVersions_agrees hpassed hparse hagrees⟩

end Steps

/-! ## Runs -/

theorem null_agrees {family : Operation.Family} (hfamily : family ∈ arrayFamilies) :
    ResponsePointers.null.Agrees family family.data := by
  simp only [arrayFamilies, List.mem_cons, List.not_mem_nil, or_false] at hfamily
  rcases hfamily with rfl | rfl | rfl | rfl | rfl
  · rfl
  · exact ⟨rfl, .nil⟩
  · exact ⟨rfl, rfl⟩
  · exact ⟨rfl, .nil⟩
  · rfl

/-- **Any number of answers** keep the invariant. -/
theorem Remembers.run {env : ReplyEnv} {family : Operation.Family} {done : List Reply}
    {state : ResponsePointers × Heap} {lost : List Nat} (h : Remembers env family done state lost)
    (hfamily : family ∈ arrayFamilies) {steps : List (Call × Reply)}
    (hcalls : ∀ step ∈ steps, ∃ op : Operation, op.call env.toEnv = some step.1 ∧
      op.family = family) {response result : Response}
    (hagrees : state.1.Agrees family response.data)
    (hrun : steps.foldlM (fun response step => step.1.receive env step.2 response) response =
      .ok result) :
    ∃ state' lost',
      (steps.map Prod.snd).foldlM (fun state reply => reply.allocate env family state) state =
        some state' ∧
      Remembers env family (done ++ steps.map Prod.snd) state' lost' ∧
      state'.1.Agrees family result.data := by
  induction steps generalizing done state lost response with
  | nil =>
      obtain rfl := Except.ok.inj hrun
      exact ⟨state, lost, rfl, (List.append_nil done).symm ▸ h, hagrees⟩
  | cons step steps ih =>
      obtain ⟨hstep, hsteps⟩ := List.forall_mem_cons.mp hcalls
      obtain ⟨op, hcall, rfl⟩ := hstep
      rw [List.foldlM_cons] at hrun
      cases hreceive : step.1.receive env step.2 response with
      | error fault =>
          rw [hreceive] at hrun
          cases hrun
      | ok middle =>
          rw [hreceive] at hrun
          obtain ⟨next, hnext, hnext'⟩ :=
            receive_agrees hcall hfamily hreceive h.accounts hagrees
          obtain ⟨lost', hremembers⟩ := h.step hfamily hnext
          obtain ⟨last, lost'', hlast, hremembers, hlast'⟩ := ih hremembers hsteps hnext' hrun
          refine ⟨last, lost'', ?_, ?_, hlast'⟩
          · rw [List.map_cons, List.foldlM_cons, hnext]
            exact hlast
          · rwa [List.append_assoc] at hremembers

/-- **The memory of a response.**  A response with an array is used for any number of answers
to operations of its class, and destroyed.  Its pointers then agree with its data, and what
it frees are blocks that were allocated and not yet freed.  Nothing is left on the heap
exactly when at most one answer had an array, none listed versions, and the entries of
directories and of lists of objects had no user metadata. -/
theorem response_memory {env : ReplyEnv} {family : Operation.Family}
    (hfamily : family ∈ arrayFamilies) {steps : List (Call × Reply)}
    (hcalls : ∀ step ∈ steps, ∃ op : Operation, op.call env.toEnv = some step.1 ∧
      op.family = family) {result : Response}
    (hrun : steps.foldlM (fun response step => step.1.receive env step.2 response)
      ⟨.init .subclass, family.data⟩ = .ok result) :
    ∃ state heap,
      (steps.map Prod.snd).foldlM (fun state reply => reply.allocate env family state)
        (.null, .empty) = some state ∧
      state.1.Agrees family result.data ∧
      state.2.freeAll (family.destroyed state.1) = some heap ∧
      (heap.AllFreed ↔ FreesAll env family (steps.map Prod.snd)) := by
  obtain ⟨state, lost, hstate, hremembers, hagrees⟩ :=
    (remembers_init env hfamily).run hfamily hcalls (null_agrees hfamily) hrun
  have hheld : Accounts state.2
      (family.destroyed state.1 ++ (family.kept state.1 ++ lost)) := by
    rw [← List.append_assoc]
    exact hremembers.accounts.perm ((ResponsePointers.blocks_perm hremembers.fits).append_right _)
  obtain ⟨heap, hheap, haccounts⟩ := hheld.freeAll
  exact ⟨state, heap, hstate, hagrees, hheap, haccounts.all_freed_iff.trans hremembers.freed⟩

/-- A request for all tags. -/
def allTagsRequest : AtmosRequest := (AtmosGetListableTagsRequest.init []).get rfl

/-- Two tags, in an answer that is read twice. -/
def colorsReply : Reply :=
  { lostReply with httpCode := 200, headers := [bytes "x-emc-listable-tags: red, blue"] }

theorem response_memory_tags :
    ∃ state heap,
      [colorsReply, colorsReply].foldlM
        (fun state reply => reply.allocate blindEnv .listableTags state) (.null, .empty) =
          some state ∧
      state.2.freeAll (Operation.Family.listableTags.destroyed state.1) = some heap ∧
      ¬ heap.AllFreed := by
  have htwice : ∀ step ∈
      List.replicate 2 (AtmosClient.getListableTags allTagsRequest, colorsReply),
      ∃ op : Operation, op.call blindEnv.toEnv = some step.1 ∧ op.family = .listableTags := by
    intro step hstep
    obtain rfl := List.eq_of_mem_replicate hstep
    exact ⟨.getListableTags allTagsRequest, rfl, rfl⟩
  obtain ⟨result, hrun⟩ : ∃ result,
      (List.replicate 2 (AtmosClient.getListableTags allTagsRequest, colorsReply)).foldlM
        (fun response step => step.1.receive blindEnv step.2 response)
        ⟨.init .subclass, Operation.Family.listableTags.data⟩ = Except.ok result := ⟨_, rfl⟩
  obtain ⟨state, heap, hstate, -, hheap, hfreed⟩ := response_memory (by decide) htwice hrun
  exact ⟨state, heap, hstate, hheap, fun hall => absurd (hfreed.mp hall).once (by decide)⟩

end Atmos
