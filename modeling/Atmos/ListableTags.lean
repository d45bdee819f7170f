import Atmos.UnparsedFailures

/-!
# Listable tags

`AtmosFilter_get_listable_tags` walks over the value of the
`x-emc-listable-tags` header: it skips spaces, looks for the next comma and
copies the text before it to a new tag, percent-decoded where the response is
in UTF-8 mode.  The array of tags grows by a hundred slots at a time.

* `tagLoop` — the loop with the allocated slots and the length that is handed
  to `curl_easy_unescape`;
* `tagPieces` — the pieces of a value that should become tags;
* `tagLoop_spec` — one tag is stored for every piece, inside the allocation;
* `getListableTags_eq` — the filter returns the tags of the loop;
* `listable_tags_iff` — when these are the decoded pieces.

The lengths and counts of the source, `int`s, are unbounded numbers here.
-/

namespace Atmos

open ByteText FixedMemory AtmosUtil

/-- The documented behaviour of `curl_easy_unescape`: every `%` with two
hexadecimal digits is decoded, and every other byte is kept. -/
def Curl.Unescapes (curl : Curl) : Prop :=
  ∀ s, curl.easyUnescape s = some (PercentEncoding.decode s)

/-! ## The loop -/

/-- The array `tags` with `tag_count` entries in `tags_alloc` slots. -/
structure TagList where
  tags : List CStr
  tagsAlloc : Nat

/-- The array before the loop. -/
def TagList.fresh : TagList := ⟨[], 100⟩

/-- Grow the array where it is full and store a tag; none past the allocated
slots. -/
def TagList.add (array : TagList) (text : CStr) : Option TagList :=
  let tagsAlloc :=
    if array.tagsAlloc < array.tags.length + 1 then array.tagsAlloc + 100 else array.tagsAlloc
  if array.tags.length < tagsAlloc then
    some { tags := array.tags ++ [text], tagsAlloc }
  else none

/-- The copy of the first `c` bytes at `tag`: for `curl_easy_unescape` a length
of 0 is the length of the text. -/
def copiedTag (curl : Curl) (utf8 : Bool) (tag : CStr) (c : Nat) : Option CStr :=
  if utf8 then
    (curl.easyUnescape (if c = 0 then tag else tag.take c)).map fun decoded =>
      decoded.takeWhile (· != 0)
  else some (tag.take c)

/-- The loop of `AtmosFilter_get_listable_tags`: no result if it has not ended
after that many rounds. -/
def tagLoop (curl : Curl) (utf8 : Bool) : Nat → CStr → TagList → Option TagList
  | 0, _, _ => none
  | rounds+1, tag, array =>
      if tag = [] then some array
      else if tag.head? = some space then tagLoop curl utf8 rounds tag.tail array
      else
        let comma? := cut comma tag
        ((copiedTag curl utf8 tag comma?.1.length).bind array.add).bind fun array =>
          comma?.2.elim (some array) fun rest => tagLoop curl utf8 rounds rest array

/-- The tags of a header value. -/
def parseTags (curl : Curl) (utf8 : Bool) (value : CStr) : Option TagList :=
  tagLoop curl utf8 (value.length + 1) value .fresh

/-! ## The pieces -/

/-- The list without its last text where that is empty. -/
def trimLast (ls : List CStr) : List CStr := if ls.getLast? = some [] then ls.dropLast else ls

/-- The pieces of a value: split at the commas, without leading spaces, and
without an empty remainder behind the last comma. -/
def tagPieces (value : CStr) : List CStr :=
  trimLast ((value.splitOn comma).map (List.dropWhile (· == space)))

@[simp] theorem tagPieces_nil : tagPieces [] = [] := by decide

/-- Spaces in front of a value do not matter. -/
theorem tagPieces_space (s : CStr) : tagPieces (space :: s) = tagPieces s := by
  have hne : (space == comma) = false := by decide
  rw [tagPieces, tagPieces, List.splitOn_cons_eq_if_modifyHead, hne, if_neg (by decide)]
  cases s.splitOn comma with
  | nil => rfl
  | cons field fields => rfl

/-- A value without commas is a piece. -/
theorem tagPieces_of_notMem {s : CStr} (hne : s ≠ []) (hhead : s.head? ≠ some space)
    (h : comma ∉ s) : tagPieces s = [s] := by
  rw [tagPieces, List.splitOn_eq_singleton h, List.map_singleton, dropWhile_space hhead, trimLast,
    if_neg (by simpa using hne)]

/-- So is the text before the first comma. -/
theorem tagPieces_append {field : CStr} (hhead : field.head? ≠ some space) (h : comma ∉ field)
    (rest : CStr) : tagPieces (field ++ comma :: rest) = field :: tagPieces rest := by
  rw [tagPieces, tagPieces, List.splitOn_append_cons_self_of_not_mem h, List.map_cons,
    dropWhile_space hhead]
  obtain ⟨first, fields, hfields⟩ := List.exists_cons_of_ne_nil (List.splitOn_ne_nil comma rest)
  rw [hfields, List.map_cons, trimLast, trimLast, List.getLast?_cons_cons, List.dropLast_cons_cons]
  split <;> rfl

/-- A tag for a piece of a header in one of the two modes. -/
def ShowsPiece (utf8 : Bool) (tag piece : CStr) : Prop :=
  if utf8 then
    if piece = [] then tag.head? = some comma
    else tag = (PercentEncoding.decode piece).takeWhile (· != 0)
  else tag = piece

/-! ## The loop stores a tag for every piece -/

/-- Storing a tag stays inside the allocation. -/
theorem TagList.add_eq {array : TagList} (h : array.tags.length ≤ array.tagsAlloc)
    (text : CStr) :
    ∃ array', array.add text = some array' ∧ array'.tags = array.tags ++ [text] ∧
      array'.tags.length ≤ array'.tagsAlloc := by
  unfold TagList.add
  dsimp only
  by_cases hfull : array.tagsAlloc < array.tags.length + 1
  · rw [if_pos hfull, if_pos (by omega)]
    exact ⟨_, rfl, rfl, by simp; omega⟩
  · rw [if_neg hfull, if_pos (by omega)]
    exact ⟨_, rfl, rfl, by simp; omega⟩

/-- The copy of what stands before a comma. -/
theorem copiedTag_eq {curl : Curl} (hcurl : curl.Unescapes) (utf8 : Bool) {field rest : CStr}
    (hne : field ≠ [] ∨ rest.head? = some comma) :
    ∃ text, copiedTag curl utf8 (field ++ rest) field.length = some text ∧
      ShowsPiece utf8 text field := by
  have htake : (field ++ rest).take field.length = field := List.take_left' rfl
  cases utf8 with
  | false => exact ⟨field, congrArg some htake, rfl⟩
  | true =>
      rw [copiedTag, if_pos rfl, hcurl, htake]
      refine ⟨_, rfl, ?_⟩
      rw [ShowsPiece, if_pos rfl]
      by_cases hempty : field = []
      · -- a length of 0: everything from the comma on is decoded
        obtain ⟨tail, rfl⟩ := List.head?_eq_some_iff.mp
          (hne.resolve_left (not_not_intro hempty))
        have hcomma : comma ≠ PercentEncoding.percent := by decide
        rw [if_pos hempty, hempty, List.length_nil, if_pos rfl, List.nil_append,
          PercentEncoding.decode_cons_of_ne hcomma]
        rfl
      · have hlength : field.length ≠ 0 := fun h => hempty (List.length_eq_zero_iff.mp h)
        rw [if_neg hempty, if_neg hlength]

/-- **The loop ends, stays inside its allocation and stores one tag for every
piece.** -/
theorem tagLoop_spec {curl : Curl} (hcurl : curl.Unescapes) (utf8 : Bool) {rounds : Nat}
    {tag : CStr} {array : TagList} (hrounds : tag.length < rounds)
    (halloc : array.tags.length ≤ array.tagsAlloc) :
    ∃ array' added, tagLoop curl utf8 rounds tag array = some array' ∧
      array'.tags = array.tags ++ added ∧ array'.tags.length ≤ array'.tagsAlloc ∧
      List.Forall₂ (ShowsPiece utf8) added (tagPieces tag) := by
  induction rounds generalizing tag array with
  | zero => exact absurd hrounds (Nat.not_lt_zero _)
  | succ rounds ih =>
      rw [tagLoop]
      by_cases hend : tag = []
      · subst hend
        exact ⟨array, [], if_pos rfl, (List.append_nil _).symm, halloc, .nil⟩
      rw [if_neg hend]
      by_cases hspace : tag.head? = some space
      · obtain ⟨tail, rfl⟩ := List.head?_eq_some_iff.mp hspace
        rw [if_pos hspace, tagPieces_space]
        exact ih (Nat.lt_of_succ_lt_succ hrounds) halloc
      rw [if_neg hspace]
      rcases cut_spec comma tag with ⟨hnone, hcut⟩ | ⟨field, rest, hfield, rfl, hcut⟩
      · -- the last piece
        obtain ⟨text, hcopy, hshows⟩ := @copiedTag_eq curl hcurl utf8 tag [] (.inl hend)
        obtain ⟨array', hadd, htags, halloc'⟩ := array.add_eq halloc text
        rw [List.append_nil] at hcopy
        refine ⟨array', [text], ?_, htags, halloc', ?_⟩
        · simp only [hcut, hcopy, Option.bind_some, hadd, Option.elim_none]
        · rw [tagPieces_of_notMem hend hspace hnone]
          exact .cons hshows .nil
      · obtain ⟨text, hcopy, hshows⟩ :=
          @copiedTag_eq curl hcurl utf8 field (comma :: rest) (.inr rfl)
        obtain ⟨array₁, hadd, htags, halloc₁⟩ := array.add_eq halloc text
        have hrest : rest.length < rounds := by
          rw [List.length_append, List.length_cons] at hrounds
          omega
        obtain ⟨array', added, hloop, htags', halloc', hshown⟩ := ih hrest halloc₁
        refine ⟨array', text :: added, ?_, ?_, halloc', ?_⟩
        · simp only [hcut, hcopy, Option.bind_some, hadd, Option.elim_some]
          exact hloop
        · rw [htags', htags, List.append_assoc]
          rfl
        · have hhead : field.head? ≠ some space := by
            cases field with
            | nil => simp
            | cons b field => exact hspace
          rw [tagPieces_append hhead hfield]
          exact .cons hshows hshown

/-! ## The filter -/

/-- The text of a tag does not depend on what stands behind its comma. -/
theorem listableTagText_eq {curl : Curl} {utf8 : Bool} {field rest text : CStr}
    (h : copiedTag curl utf8 (field ++ rest) field.length = some text) :
    listableTagText curl utf8 (field ++ rest) field = .ok text := by
  have htake : (field ++ rest).take field.length = field := List.take_left' rfl
  rw [copiedTag, htake] at h
  rw [listableTagText]
  cases utf8 with
  | false => exact congrArg Except.ok (Option.some.inj h)
  | true =>
      simp only [if_true, List.length_eq_zero_iff] at h ⊢
      obtain ⟨decoded, hdecoded, rfl⟩ := Option.map_eq_some_iff.mp h
      rw [hdecoded]
      rfl

theorem TagList.add_tags {array array' : TagList} {text : CStr}
    (h : array.add text = some array') : array'.tags = array.tags ++ [text] := by
  obtain ⟨-, hstored⟩ := Option.ite_none_right_eq_some.mp h
  exact (congrArg TagList.tags (Option.some.inj hstored)).symm

/-- The tags of the loop, whatever array they are stored in. -/
theorem scanTags_of_tagLoop {curl : Curl} {utf8 : Bool} {rounds : Nat} {tag : CStr}
    {array array' : TagList} (h : tagLoop curl utf8 rounds tag array = some array') :
    scanTags curl utf8 rounds tag array.tags = .ok array'.tags := by
  induction rounds generalizing tag array with
  | zero => cases h
  | succ rounds ih =>
      rw [tagLoop] at h
      rw [scanTags]
      by_cases hend : tag = []
      · rw [if_pos hend] at h ⊢
        rw [Option.some.inj h]
      rw [if_neg hend] at h ⊢
      by_cases hspace : tag.head? = some space
      · rw [if_pos hspace] at h ⊢
        exact ih h
      rw [if_neg hspace] at h ⊢
      obtain ⟨array₁, hadded, h⟩ := Option.bind_eq_some_iff.mp h
      obtain ⟨text, hcopy, hadd⟩ := Option.bind_eq_some_iff.mp hadded
      have htags := TagList.add_tags hadd
      rcases cut_spec comma tag with ⟨hnone, hcut⟩ | ⟨field, rest, hfield, rfl, hcut⟩
      · have hfield : tag.takeWhile (· != comma) = tag :=
          List.takeWhile_eq_self_iff.mpr fun b hb => by
            simpa using fun heq : b = comma => hnone (heq ▸ hb)
        have htext := @listableTagText_eq curl utf8 tag [] text
        rw [List.append_nil] at htext
        rw [hcut] at hcopy h
        cases h
        simp only [hfield, htext hcopy, htags, Except.bind, Nat.lt_irrefl, if_false]
      · have hfield' : (field ++ comma :: rest).takeWhile (· != comma) = field := by
          rw [List.takeWhile_append_of_pos fun b hb => by
            simpa using fun heq : b = comma => hfield (heq ▸ hb)]
          simp
        have hlength : field.length < (field ++ comma :: rest).length := by simp
        have hdrop : (field ++ comma :: rest).drop (field.length + 1) = rest := by
          rw [← List.drop_drop, List.drop_left]
          rfl
        rw [hcut] at hcopy h
        simp only [hfield', listableTagText_eq hcopy, Except.bind, if_pos hlength, hdrop, ← htags]
        exact ih h

/-- **The filter returns the tags of the loop.** -/
theorem getListableTags_eq {env : ReplyEnv} {reply : Reply} {response : Response}
    {token : Option CStr} {tags : Option (List CStr)} {value : CStr} {array : TagList}
    (hcode : response.parent.httpCode ≤ 299)
    (hdata : response.data = .getListableTags token tags)
    (hvalue : reply.getHeaderValue env atmosHeaderListableTags = some value)
    (harray : parseTags env.curl (isUtf8 env.rest reply.headers) value = some array) :
    AtmosFilter.After.getListableTags env reply response = .ok { response with
      data := .getListableTags ((reply.getHeaderValue env atmosHeaderToken).or token)
        (some array.tags) } := by
  have hparse : aboveSuccess response.parent.httpCode = false := by
    simpa [aboveSuccess] using hcode
  have hscan := scanTags_of_tagLoop harray
  rw [AtmosFilter.After.getListableTags, parseUnless, hparse, if_neg (by decide), hdata]
  dsimp only
  rw [hvalue, Option.getD_some]
  change scanTags _ _ _ _ [] = _ at hscan
  rw [hscan]
  rfl

/-- For every successful response with this value the filter returns the tags
of one array in plain mode and of another in UTF-8 mode. -/
def ReturnsTags (env : ReplyEnv) (value : CStr) (plain utf8 : TagList) : Prop :=
  ∀ (reply : Reply) (response : Response) (token : Option CStr) (tags : Option (List CStr)),
    reply.getHeaderValue env atmosHeaderListableTags = some value →
    response.parent.httpCode ≤ 299 → response.data = .getListableTags token tags →
    AtmosFilter.After.getListableTags env reply response = .ok { response with
      data := .getListableTags ((reply.getHeaderValue env atmosHeaderToken).or token)
        (some (if isUtf8 env.rest reply.headers then utf8.tags else plain.tags)) }

/-! ## When the tags are the pieces -/

theorem mem_tagPieces {value piece : CStr} (h : piece ∈ tagPieces value) : piece ⊆ value := by
  have hmem : piece ∈ (value.splitOn comma).map (List.dropWhile (· == space)) := by
    rw [tagPieces, trimLast] at h
    split at h
    · exact List.dropLast_subset _ h
    · exact h
  obtain ⟨field, hfield, rfl⟩ := List.mem_map.mp hmem
  exact List.Subset.trans (List.dropWhile_subset _) (subset_of_mem_splitOn hfield)

/-- In plain mode the tags are the pieces. -/
theorem tags_plain {tags pieces : List CStr}
    (h : List.Forall₂ (ShowsPiece false) tags pieces) : tags = pieces := by
  induction h with
  | nil => rfl
  | cons hshows _ ih => rw [ih, show _ = _ from hshows]

/-- In UTF-8 mode a tag is its decoded piece exactly where there is something
to decode, and no NUL in the result. -/
theorem showsPiece_utf8_iff {tag piece : CStr} (h : ShowsPiece true tag piece) :
    tag = PercentEncoding.decode piece ↔ piece ≠ [] ∧ 0 ∉ PercentEncoding.decode piece := by
  rw [ShowsPiece, if_pos rfl] at h
  by_cases hempty : piece = []
  · rw [if_pos hempty] at h
    refine iff_of_false (fun heq => ?_) fun hne => hne.1 hempty
    rw [heq, hempty] at h
    cases h
  · rw [if_neg hempty] at h
    rw [h]
    constructor
    · intro heq
      refine ⟨hempty, fun hmem => ?_⟩
      have hkept := List.takeWhile_eq_self_iff.mp heq 0 hmem
      exact absurd hkept (by decide)
    · exact fun hne => takeWhile_ne_zero hne.2

theorem tags_utf8_iff {tags pieces : List CStr}
    (h : List.Forall₂ (ShowsPiece true) tags pieces) :
    tags = pieces.map PercentEncoding.decode ↔
      ∀ piece ∈ pieces, piece ≠ [] ∧ 0 ∉ PercentEncoding.decode piece := by
  induction h with
  | nil => simp
  | cons hshows _ ih =>
      rw [List.map_cons, List.cons_eq_cons, List.forall_mem_cons, ih, showsPiece_utf8_iff hshows]

/-- **Listable tags.**  For every value the loop ends inside its allocation in
both modes and returns the pieces in plain mode; in UTF-8 mode it returns the
decoded pieces exactly where none of them is empty or decodes to a text with a
NUL. -/
theorem listable_tags_iff {env : ReplyEnv} (hcurl : env.curl.Unescapes) {value : CStr}
    (hvalue : 0 ∉ value) :
    ∃ plain utf8 : TagList,
      parseTags env.curl false value = some plain ∧
      parseTags env.curl true value = some utf8 ∧
      ReturnsTags env value plain utf8 ∧
      plain.tags.length ≤ plain.tagsAlloc ∧ utf8.tags.length ≤ utf8.tagsAlloc ∧
      plain.tags = tagPieces value ∧
      (utf8.tags = (tagPieces value).map PercentEncoding.decode ↔
        ∀ piece ∈ tagPieces value, piece ≠ [] ∧ 0 ∉ PercentEncoding.decode piece) ∧
      (PercentEncoding.percent ∉ value → (utf8.tags = plain.tags ↔ [] ∉ tagPieces value)) := by
  obtain ⟨plain, added, hplain, htags, halloc, hshown⟩ := @tagLoop_spec env.curl hcurl false
    (value.length + 1) value .fresh (Nat.lt_succ_self _) (Nat.zero_le _)
  obtain ⟨utf8, added', hutf8, htags', halloc', hshown'⟩ := @tagLoop_spec env.curl hcurl true
    (value.length + 1) value .fresh (Nat.lt_succ_self _) (Nat.zero_le _)
  obtain rfl : plain.tags = added := htags
  obtain rfl : utf8.tags = added' := htags'
  have hpieces := tags_plain hshown
  refine ⟨plain, utf8, hplain, hutf8, ?_, halloc, halloc', hpieces, tags_utf8_iff hshown', ?_⟩
  · intro reply response token tags hheader hcode hdata
    cases hmode : isUtf8 env.rest reply.headers with
    | false => exact getListableTags_eq hcode hdata hheader (hmode ▸ hplain)
    | true => exact getListableTags_eq hcode hdata hheader (hmode ▸ hutf8)
  · intro hpercent
    have hdecode : ∀ piece ∈ tagPieces value, PercentEncoding.decode piece = piece :=
      fun piece hmem =>
        PercentEncoding.decode_of_notMem fun hin => hpercent (mem_tagPieces hmem hin)
    have hiff := tags_utf8_iff hshown'
    rw [List.map_congr_left hdecode, List.map_id'] at hiff
    rw [hpieces, hiff]
    constructor
    · exact fun h hmem => (h [] hmem).1 rfl
    · refine fun h piece hmem => ⟨fun heq => h (heq ▸ hmem), fun hzero => ?_⟩
      rw [hdecode piece hmem] at hzero
      exact hvalue (mem_tagPieces hmem hzero)

/-- `a, b c,` in either mode. -/
theorem listable_tags_iff_two :
    ∃ plain utf8 : TagList,
      parseTags blindEnv.curl false (bytes "a, b c,") = some plain ∧
      parseTags blindEnv.curl true (bytes "a, b c,") = some utf8 ∧
      ReturnsTags blindEnv (bytes "a, b c,") plain utf8 ∧
      plain.tags.length ≤ plain.tagsAlloc ∧ utf8.tags.length ≤ utf8.tagsAlloc ∧
      plain.tags = [bytes "a", bytes "b c"] ∧ utf8.tags = plain.tags := by
  have hpieces : tagPieces (bytes "a, b c,") = [bytes "a", bytes "b c"] := by decide
  obtain ⟨plain, utf8, hplain, hutf8, hreturns, halloc, halloc', htags, -, hagree⟩ :=
    @listable_tags_iff blindEnv (fun _ => rfl) (bytes "a, b c,") (by decide)
  refine ⟨plain, utf8, hplain, hutf8, hreturns, halloc, halloc', htags.trans hpieces,
    (hagree (by decide)).mpr ?_⟩
  rw [hpieces]
  decide

/-- **The text behind an empty piece becomes a tag of its own** in UTF-8 mode. -/
theorem empty_piece_takes_rest :
    tagPieces (bytes "a,,b") = [bytes "a", [], bytes "b"] ∧
      (parseTags Curl.standard false (bytes "a,,b")).map TagList.tags =
        some [bytes "a", [], bytes "b"] ∧
      (parseTags Curl.standard true (bytes "a,,b")).map TagList.tags =
        some [bytes "a", bytes ",b", bytes "b"] := by
  decide

end Atmos
