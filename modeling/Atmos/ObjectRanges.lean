import Atmos.FormattedText
import Atmos.SignatureCoverage

/-!
# Ranges by offset and size

Read and update requests keep the first and the last byte of a range in two
`int64_t` fields, with -1 for a bound that is not set.  The two functions
`…_set_range_offset_size` compute these fields, and the filters write a
`Range` header with one of three forms.

* `ByteRange` — what such a header asks for, as the declarations of
  `…_set_range` describe the fields;
* `read_between` and `read_onwards` — the header texts are read as that;
* `readObject_range` and `updateObject_range` — the `Range` header that is sent
  for a read and an update request;
* `range_offset_size_iff` — when an offset and a size select exactly these
  bytes.
-/

namespace Atmos

open ByteText FixedMemory FilterChain FormattedText

/-! ## Setting a range -/

/-- The value of a signed 64-bit expression, none where it overflows. -/
def signedValue (n : Int) : Option Int64 :=
  if Int64.minValue.toInt ≤ n ∧ n ≤ Int64.maxValue.toInt then some (Int64.ofInt n) else none

theorem signedValue_eq_some {n : Int} {v : Int64} : signedValue n = some v ↔ v.toInt = n := by
  have hmin := v.le_toInt
  have hmax := v.toInt_lt
  have hminValue : Int64.minValue.toInt = -9223372036854775808 := rfl
  have hmaxValue : Int64.maxValue.toInt = 9223372036854775807 := rfl
  unfold signedValue
  by_cases hrange : Int64.minValue.toInt ≤ n ∧ n ≤ Int64.maxValue.toInt
  · have hof : (Int64.ofInt n).toInt = n := Int64.toInt_ofInt_of_le (by omega) (by omega)
    rw [if_pos hrange, Option.some.injEq]
    constructor
    · rintro rfl
      exact hof
    · intro hv
      exact Int64.toInt_inj.mp (hof.trans hv.symm)
  · rw [if_neg hrange]
    refine iff_of_false (Option.some_ne_none v).symm fun hv => hrange ?_
    omega

/-- The fields for `offset` and `offset + size - 1`. -/
def ObjectRange.ofOffsetSize (offset size : Int64) : Option ObjectRange := do
  let sum ← signedValue (offset.toInt + size.toInt)
  let last ← signedValue (sum.toInt - 1)
  return { rangeStart := offset, rangeEnd := last }

theorem ofOffsetSize_eq_some {offset size : Int64} {range : ObjectRange} :
    ObjectRange.ofOffsetSize offset size = some range ↔
      (∃ sum : Int64, sum.toInt = offset.toInt + size.toInt) ∧ range.rangeStart = offset ∧
        range.rangeEnd.toInt = offset.toInt + size.toInt - 1 := by
  unfold ObjectRange.ofOffsetSize
  constructor
  · intro h
    obtain ⟨sum, hsum, h⟩ := Option.bind_eq_some_iff.mp h
    obtain ⟨last, hlast, h⟩ := Option.bind_eq_some_iff.mp h
    cases h
    rw [signedValue_eq_some] at hsum hlast
    exact ⟨⟨sum, hsum⟩, rfl, hlast.trans (by rw [hsum])⟩
  · rintro ⟨⟨sum, hsum⟩, rfl, hend⟩
    rw [signedValue_eq_some.mpr hsum, Option.bind_eq_bind, Option.bind_some,
      signedValue_eq_some.mpr (hend.trans (by rw [hsum]))]
    rfl

/-- `AtmosReadObjectRequest_set_range_offset_size` -/
def AtmosReadObjectRequest.setRangeOffsetSize (offset size : Int64) (request : AtmosRequest) :
    Option AtmosRequest :=
  match request.fields with
  | .readObject _ => (ObjectRange.ofOffsetSize offset size).map fun range =>
      { request with fields := .readObject range }
  | _ => none

/-- `AtmosUpdateObjectRequest_set_range_offset_size` -/
def AtmosUpdateObjectRequest.setRangeOffsetSize (offset size : Int64) (request : AtmosRequest) :
    Option AtmosRequest :=
  match request.fields with
  | .updateObject write _ => (ObjectRange.ofOffsetSize offset size).map fun range =>
      { request with fields := .updateObject write range }
  | _ => none

/-! ## What a range asks for -/

/-- The kinds of range. -/
inductive ByteRange where
  | between (first last : Nat)
  | onwards (first : Nat)
  | lastBytes (count : Nat)
  deriving DecidableEq

/-- The bytes of an object of `length` bytes that a range selects. -/
def ByteRange.Selects (length : Nat) : ByteRange → Nat → Prop
  | between first last, k => first ≤ k ∧ k ≤ last
  | onwards first, k => first ≤ k ∧ k < length
  | lastBytes count, k => length ≤ k + count ∧ k < length

/-- The range between two texts of digits, one of which may be missing. -/
def ByteRange.ofDigits (first last : CStr) : Option ByteRange :=
  if first.all isDigit && last.all isDigit then
    if first = [] then if last = [] then none else some (lastBytes (readDigits last))
    else if last = [] then some (onwards (readDigits first))
    else some (between (readDigits first) (readDigits last))
  else none

/-- The range the value of a `Range` header asks for. -/
def ByteRange.read (value : CStr) : Option ByteRange :=
  if (bytes "Bytes=").isPrefixOf value then
    (cut 45 (value.drop 6)).2.bind (ofDigits (cut 45 (value.drop 6)).1)
  else none

theorem decimal_natCast (n : Nat) : decimal n = digits n := by
  rw [decimal, if_neg (by omega), Int.natAbs_natCast]

theorem all_isDigit_digits (n : Nat) : (digits n).all isDigit = true :=
  List.all_eq_true.mpr fun _ => isDigit_of_mem_digits

theorem readDigits_digits (n : Nat) : readDigits (digits n) = n :=
  readDigits_zeros_digits 0 n

theorem cut_digits (n : Nat) (rest : CStr) :
    cut 45 (digits n ++ (bytes "-" ++ rest)) = (digits n, some rest) := by
  have hdash : (45 : UInt8) ∉ digits n := fun hmem =>
    (isDigit_ne (isDigit_of_mem_digits hmem)).2.2 rfl
  exact cut_append_sep hdash

/-- The text of a range with both bounds. -/
theorem read_between (first last : Nat) :
    ByteRange.read (bytes "Bytes=" ++ (decimal first ++ bytes "-" ++ decimal last)) =
      some (.between first last) := by
  have hunit : (bytes "Bytes=").isPrefixOf (bytes "Bytes=" ++
      (decimal first ++ bytes "-" ++ decimal last)) = true :=
    List.isPrefixOf_iff_prefix.mpr (List.prefix_append _ _)
  have hdrop : (bytes "Bytes=" ++ (decimal first ++ bytes "-" ++ decimal last)).drop 6 =
      digits first ++ (bytes "-" ++ digits last) := by
    rw [decimal_natCast, decimal_natCast, List.append_assoc]
    exact List.drop_left' rfl
  rw [ByteRange.read, if_pos hunit, hdrop, cut_digits, Option.bind_some, ByteRange.ofDigits,
    all_isDigit_digits, all_isDigit_digits, Bool.and_self, if_pos rfl,
    if_neg (digits_ne_nil first), if_neg (digits_ne_nil last), readDigits_digits,
    readDigits_digits]

/-- The text of a range with a first byte only. -/
theorem read_onwards (first : Nat) :
    ByteRange.read (bytes "Bytes=" ++ (decimal first ++ bytes "-")) = some (.onwards first) := by
  have hunit : (bytes "Bytes=").isPrefixOf (bytes "Bytes=" ++
      (decimal first ++ bytes "-")) = true :=
    List.isPrefixOf_iff_prefix.mpr (List.prefix_append _ _)
  have hdrop : (bytes "Bytes=" ++ (decimal first ++ bytes "-")).drop 6 =
      digits first ++ (bytes "-" ++ []) := by
    rw [decimal_natCast, List.append_nil]
    exact List.drop_left' rfl
  rw [ByteRange.read, if_pos hunit, hdrop, cut_digits, Option.bind_some, ByteRange.ofDigits,
    all_isDigit_digits, List.all_nil, Bool.and_self, if_pos rfl, if_neg (digits_ne_nil first),
    if_pos rfl, readDigits_digits]

example : ByteRange.read (bytes "Bytes=-5") = some (.lastBytes 5) := by decide

/-! ## The header that is sent -/

/-- Whenever a call sends its request, this is the value of its `Range`
header. -/
def SendsRange (env : Env) (call : Call) (value : Option CStr) : Prop :=
  ∀ response x sent, call.execute env response = some (.next x) → Event.sent sent ∈ x.trace →
    env.rest.getHeaderValue sent.headers httpHeaderRange = value

/-- The value of the header for a range. -/
def rangeValue (range : ObjectRange) : Option CStr := (rangeHeaders range).head?.map Header.value

theorem getHeaderValue_rangeHeaders (rest : RestClient) (range : ObjectRange) :
    rest.getHeaderValue ((rangeHeaders range).map Header.line) httpHeaderRange =
      rangeValue range := by
  have hcolon : colon ∉ httpHeaderRange := by decide
  have hvalue : ∀ v : CStr, rest.getHeaderValue
      ([(⟨httpHeaderRange, bytes "Bytes=" ++ v⟩ : Header)].map Header.line) httpHeaderRange =
        some (bytes "Bytes=" ++ v) := by
    intro v
    have hhead : (bytes "Bytes=" ++ v).head? ≠ some space := by
      have hfirst : (bytes "Bytes=" ++ v).head? = some 66 := rfl
      rw [hfirst]
      decide
    rw [List.map_singleton, rest.getHeaderValue_cons, Header.line, nameIs_headerLine hcolon,
      if_pos (decide_eq_true rfl), rest.headerValue_headerLine hcolon hhead]
  rw [rangeValue, rangeHeaders]
  split
  · exact hvalue _
  · split
    · exact hvalue _
    · unfold headerIf
      split
      · exact hvalue _
      · rfl

theorem rangeValue_between {range : ObjectRange} (hstart : range.rangeStart ≠ -1)
    (hend : range.rangeEnd ≠ -1) :
    rangeValue range = some (bytes "Bytes=" ++
      (decimal range.rangeStart.toInt ++ bytes "-" ++ decimal range.rangeEnd.toInt)) := by
  rw [rangeValue, rangeHeaders, if_pos ⟨hstart, hend⟩]
  rfl

theorem rangeValue_onwards {range : ObjectRange} (hstart : range.rangeStart ≠ -1)
    (hend : range.rangeEnd = -1) :
    rangeValue range =
      some (bytes "Bytes=" ++ (decimal range.rangeStart.toInt ++ bytes "-")) := by
  rw [rangeValue, rangeHeaders, if_neg fun h => h.2 hend, if_pos hstart]
  rfl

section Sending

variable {env : Env} (hcontent : ∀ r, linesNamed httpHeaderRange (env.rest.contentHeaders r) = [])

include hcontent

/-- The default filters add no `Range` header. -/
theorem getHeaderValue_sent {y : Exchange} {hashString : CStr} {sent : RestRequest}
    (htrace : y.trace = []) (hsent : Event.sent sent ∈ (y.signedAndSent env hashString).trace) :
    env.rest.getHeaderValue sent.headers httpHeaderRange =
      env.rest.getHeaderValue (linesNamed httpHeaderRange y.headers) httpHeaderRange := by
  have hheaders : sent.headers = y.headers ++ [dateLine env] ++ [uidLine env] ++
      env.rest.contentHeaders ((y.request.parent.addHeader (dateLine env)).addHeader
        (uidLine env)) ++ [signatureLine env hashString] := by
    rw [sent_eq_of_mem htrace hsent]
    rfl
  have hdate : linesNamed httpHeaderRange [dateLine env] = [] :=
    linesNamed_other (by decide) (by decide) _
  have huid : linesNamed httpHeaderRange [uidLine env] = [] :=
    linesNamed_other (by decide) (by decide) _
  have hsignature : linesNamed httpHeaderRange [signatureLine env hashString] = [] :=
    linesNamed_other (by decide) (by decide) _
  rw [← env.rest.getHeaderValue_filter]
  change env.rest.getHeaderValue (linesNamed httpHeaderRange sent.headers) _ = _
  rw [hheaders, linesNamed_append, linesNamed_append, linesNamed_append, linesNamed_append,
    hdate, huid, hcontent, hsignature, List.append_nil, List.append_nil, List.append_nil,
    List.append_nil]

/-- A call whose own filters add the header for a range and no other of that
name. -/
theorem sendsRange_of_appends {request : AtmosRequest} {filters : List RestFilter}
    {range : ObjectRange} (hown : linesNamed httpHeaderRange request.parent.headers = [])
    (hrun : ∀ response y,
      run (filters.reverse.map (RestFilter.before env)) { request, response, trace := [] } =
        some (.next y) →
      ∃ others, linesNamed httpHeaderRange others = [] ∧
        Appends { request, response, trace := [] } y
          ((rangeHeaders range).map Header.line ++ others)) :
    SendsRange env (AtmosClient.call request filters) (rangeValue range) := by
  intro response x sent h hsent
  obtain ⟨y, hashString, hfilters, -, rfl⟩ := execute_call_eq_next.mp h
  obtain ⟨others, hothers, happends⟩ := hrun response y hfilters
  have hheaders : y.headers =
      request.parent.headers ++ ((rangeHeaders range).map Header.line ++ others) :=
    happends.headers
  rw [getHeaderValue_sent hcontent happends.trace hsent, hheaders, linesNamed_append, hown,
    List.nil_append, linesNamed_append, hothers, List.append_nil]
  exact (env.rest.getHeaderValue_filter _ _).trans (getHeaderValue_rangeHeaders env.rest range)

/-- **A read request** is sent with the header for its range. -/
theorem readObject_range {request : AtmosRequest} {range : ObjectRange}
    (hfields : request.fields = .readObject range)
    (hown : linesNamed httpHeaderRange request.parent.headers = []) :
    SendsRange env (AtmosClient.readObject request) (rangeValue range) := by
  refine sendsRange_of_appends hcontent hown fun response y hrun => ?_
  obtain ⟨s, hparse, hread⟩ := run_pair_eq_next.mp hrun
  cases hparse
  obtain ⟨range', hrange, rfl⟩ := setReadObjectHeaders_eq_next hread
  cases hfields.symm.trans hrange
  refine ⟨(utf8Headers env).map Header.line,
    (named_utf8Headers env).linesNamed_eq_nil (by decide), ?_⟩
  rw [← List.map_append]
  exact appends_addHeaders _ _

/-- **So is an update request.** -/
theorem updateObject_range {request : AtmosRequest} {write : AtmosWriteObjectRequest}
    {range : ObjectRange} (hfields : request.fields = .updateObject write range)
    (hown : linesNamed httpHeaderRange request.parent.headers = []) :
    SendsRange env (AtmosClient.updateObject request) (rangeValue range) := by
  refine sendsRange_of_appends hcontent hown fun response y hrun => ?_
  obtain ⟨s, hrange, hwrite⟩ := run_pair_eq_next.mp hrun
  obtain ⟨write', range', hranged, rfl⟩ := updateObject_eq_next hrange
  cases hfields.symm.trans hranged
  obtain ⟨req, lines, -, rfl, happends⟩ := setWriteHeaders_eq_next hwrite
  rw [← List.map_append] at happends
  refine ⟨_, ?_, (appends_addHeaders _ _).trans happends⟩
  have hobject := named_objectHeaders env req.metadata req.listableMeta req.acl
  have hchecksum := named_checksumHeaders env.openssl request.parent.requestBody req.checksum
  exact (((named_headerIf _ _ _).append hobject).append (hchecksum.filter _)).linesNamed_eq_nil
    (by decide)

end Sending

/-- A read request is sent if its header lines have a colon. -/
theorem readObject_sends (env : Env) {request : AtmosRequest} {range : ObjectRange}
    (hfields : request.fields = .readObject range)
    (hcolon : ∀ line ∈ request.parent.headers, colon ∈ line) :
    ∃ response x sent, (AtmosClient.readObject request).execute env response = some (.next x) ∧
      Event.sent sent ∈ x.trace := by
  let x : Exchange := { request, response := .init .subclass, trace := [] }
  have hrun : run ([RestFilter.setReadObjectHeaders, .parseReadObjectResponse].reverse.map
      (RestFilter.before env)) x =
        some (.next (x.addHeaders ((rangeHeaders range ++ utf8Headers env).map Header.line))) := by
    refine run_pair_eq_next.mpr ⟨x, rfl, ?_⟩
    change AtmosFilter.setReadObjectHeaders env x = _
    unfold AtmosFilter.setReadObjectHeaders
    rw [show x.request.fields = .readObject range from hfields]
    dsimp only
    rw [addRange_eq, addUtf8_eq, Exchange.addHeaders_addHeaders, ← List.map_append]
  refine ⟨.init .subclass, execute_call_sends (by decide) hrun fun line hline => ?_⟩
  rw [Exchange.headers_addHeaders] at hline
  rcases List.mem_append.mp hline with hline | hline
  · exact hcolon line hline
  · obtain ⟨header, -, rfl⟩ := List.mem_map.mp hline
    exact colon_mem_headerLine _ _

/-! ## The bytes an offset and a size select -/

/-- A read and an update request with this offset and size send the same
`Range` header, and it asks for exactly these bytes of an object. -/
def SelectBytes (env : Env) (read update : AtmosRequest) (offset size : Int64) : Prop :=
  ∃ read' update' value first last,
    AtmosReadObjectRequest.setRangeOffsetSize offset size read = some read' ∧
    AtmosUpdateObjectRequest.setRangeOffsetSize offset size update = some update' ∧
    SendsRange env (AtmosClient.readObject read') (some value) ∧
    SendsRange env (AtmosClient.updateObject update') (some value) ∧
    ByteRange.read value = some (.between first last) ∧
    ∀ length k, (ByteRange.between first last).Selects length k ↔
      offset.toInt ≤ k ∧ (k : Int) ≤ offset.toInt + size.toInt - 1

/-- **Offset and size select their bytes** exactly where they are not both 0
and their sum does not overflow. -/
theorem range_offset_size_iff {env : Env}
    (hcontent : ∀ r, linesNamed httpHeaderRange (env.rest.contentHeaders r) = [])
    {read update : AtmosRequest} {range range' : ObjectRange} {write : AtmosWriteObjectRequest}
    (hread : read.fields = .readObject range)
    (hupdate : update.fields = .updateObject write range')
    (hown : linesNamed httpHeaderRange read.parent.headers = [])
    (hown' : linesNamed httpHeaderRange update.parent.headers = [])
    (hcolon : ∀ line ∈ read.parent.headers, colon ∈ line)
    {offset size : Int64} (hoffset : 0 ≤ offset.toInt) (hsize : 0 ≤ size.toInt)
    (hlast : offset.toInt + size.toInt - 1 ≤ Int64.maxValue.toInt) :
    SelectBytes env read update offset size ↔
      0 < offset.toInt + size.toInt ∧ offset.toInt + size.toInt ≤ Int64.maxValue.toInt := by
  have hset : AtmosReadObjectRequest.setRangeOffsetSize offset size read =
      (ObjectRange.ofOffsetSize offset size).map fun r =>
        { read with fields := .readObject r } := by
    unfold AtmosReadObjectRequest.setRangeOffsetSize
    rw [hread]
  have hset' : AtmosUpdateObjectRequest.setRangeOffsetSize offset size update =
      (ObjectRange.ofOffsetSize offset size).map fun r =>
        { update with fields := .updateObject write r } := by
    unfold AtmosUpdateObjectRequest.setRangeOffsetSize
    rw [hupdate]
  have hmaxValue : Int64.maxValue.toInt = 9223372036854775807 := rfl
  have hunset : (-1 : Int64).toInt = -1 := rfl
  have hstarts : offset ≠ -1 := by
    rintro rfl
    omega
  constructor
  · rintro ⟨read', update', value, first, last, hread', -, hsends, -, hvalue, -⟩
    rw [hset] at hread'
    obtain ⟨r, hr, rfl⟩ := Option.map_eq_some_iff.mp hread'
    obtain ⟨⟨sum, hsum⟩, hstart, hend⟩ := ofOffsetSize_eq_some.mp hr
    have hfits := sum.toInt_lt
    refine ⟨?_, by omega⟩
    by_contra hempty
    -- an empty range at 0 ends at the value of an unset bound
    have hend' : r.rangeEnd = -1 := Int64.toInt_inj.mp (by omega)
    have hopen := rangeValue_onwards (hstart ▸ hstarts) hend'
    obtain ⟨response, x, sent, hexecute, hsent⟩ :=
      @readObject_sends env { read with fields := .readObject r } r rfl hcolon
    have hrange := @readObject_range env hcontent { read with fields := .readObject r } r rfl hown
      response x sent hexecute hsent
    rw [hsends response x sent hexecute hsent, hopen, Option.some.injEq] at hrange
    have hzero : r.rangeStart.toInt = ((0 : Nat) : Int) := by
      rw [hstart]
      omega
    rw [hrange, hzero, read_onwards] at hvalue
    cases hvalue
  · rintro ⟨hpos, hfits⟩
    obtain ⟨first, hfirst⟩ := Int.eq_ofNat_of_zero_le hoffset
    obtain ⟨last, hlast'⟩ := Int.eq_ofNat_of_zero_le
      (show 0 ≤ offset.toInt + size.toInt - 1 by omega)
    have hsum : (Int64.ofInt (offset.toInt + size.toInt)).toInt = offset.toInt + size.toInt :=
      Int64.toInt_ofInt_of_le (by omega) (by omega)
    have hend : (Int64.ofInt (offset.toInt + size.toInt - 1)).toInt =
        offset.toInt + size.toInt - 1 := Int64.toInt_ofInt_of_le (by omega) (by omega)
    obtain ⟨r, hr, hstart, hend⟩ : ∃ r, ObjectRange.ofOffsetSize offset size = some r ∧
        r.rangeStart = offset ∧ r.rangeEnd.toInt = last :=
      ⟨⟨offset, _⟩, ofOffsetSize_eq_some.mpr ⟨⟨_, hsum⟩, rfl, hend⟩, rfl, hend.trans hlast'⟩
    have hends : r.rangeEnd ≠ -1 := by
      intro h
      rw [h] at hend
      omega
    have hvalue := rangeValue_between (hstart ▸ hstarts) hends
    rw [hstart, hfirst, hend] at hvalue
    rw [hr] at hset hset'
    refine ⟨_, _, bytes "Bytes=" ++ (decimal first ++ bytes "-" ++ decimal last), first, last,
      hset, hset', ?_, ?_, read_between first last, ?_⟩
    · rw [← hvalue]
      exact readObject_range hcontent rfl hown
    · rw [← hvalue]
      exact updateObject_range hcontent rfl hown'
    · intro length k
      change first ≤ k ∧ k ≤ last ↔ _
      omega

/-- A client that states the type and length of a body adds no `Range` header. -/
theorem plain_contentHeaders (r : RestRequest) :
    linesNamed httpHeaderRange (RestClient.plain.contentHeaders r) = [] := by
  have hline : ∀ name text : CStr, colon ∉ name →
      ByteText.lowercase name ≠ ByteText.lowercase httpHeaderRange →
      nameIs httpHeaderRange (name ++ colon :: text) = false := fun name text hcolon hne => by
    rw [nameIs_line hcolon]
    exact decide_eq_false hne
  apply List.filter_eq_nil_iff.mpr
  intro line hmem
  rw [Bool.not_eq_true]
  cases hbody : r.requestBody with
  | none => simp [RestClient.plain, hbody] at hmem
  | some body =>
      simp only [RestClient.plain, hbody, List.mem_append, List.mem_map, List.mem_singleton]
        at hmem
      rcases hmem with ⟨type, -, rfl⟩ | rfl
      · exact hline (bytes "Content-Type") (space :: type) (by decide) (by decide)
      · exact hline (bytes "Content-Length") (space :: _) (by decide) (by decide)

/-- A new request to read an object. -/
private def readNotes : AtmosRequest :=
  AtmosReadObjectRequest.init (bytes "4ee696e4a11f549604f0b753")

/-- A new request to update it. -/
private def updateNotes : AtmosRequest :=
  AtmosUpdateObjectRequest.init (bytes "4ee696e4a11f549604f0b753")

theorem range_offset_size_iff_notes : SelectBytes readerEnv readNotes updateNotes 5 3 ↔
    0 < (5 : Int64).toInt + (3 : Int64).toInt ∧
      (5 : Int64).toInt + (3 : Int64).toInt ≤ Int64.maxValue.toInt :=
  range_offset_size_iff plain_contentHeaders rfl rfl rfl rfl (by decide) (by decide) (by decide)
    (by decide)

/-- **No bytes become all bytes.**  A size of 0 at offset 0 asks for the object
from its first byte on, and a range that ends at the last possible byte
overflows. -/
theorem empty_range_reads_object :
    (∃ request response x sent,
      AtmosReadObjectRequest.setRangeOffsetSize 0 0 readNotes = some request ∧
      (AtmosClient.readObject request).execute readerEnv response = some (.next x) ∧
      Event.sent sent ∈ x.trace ∧
      readerEnv.rest.getHeaderValue sent.headers httpHeaderRange = some (bytes "Bytes=0-") ∧
      ByteRange.read (bytes "Bytes=0-") = some (.onwards 0) ∧
      (ByteRange.onwards 0).Selects 1 0) ∧
    (1 : Int64).toInt + Int64.maxValue.toInt - 1 = Int64.maxValue.toInt ∧
    AtmosReadObjectRequest.setRangeOffsetSize 1 Int64.maxValue readNotes = none := by
  refine ⟨?_, by decide, by decide⟩
  let request : AtmosRequest := { readNotes with fields := .readObject ⟨0, -1⟩ }
  obtain ⟨response, x, sent, hexecute, hsent⟩ :=
    @readObject_sends readerEnv request ⟨0, -1⟩ rfl (by decide)
  refine ⟨request, response, x, sent, by decide, hexecute, hsent, ?_, by decide,
    Nat.le_refl 0, Nat.one_pos⟩
  exact @readObject_range readerEnv plain_contentHeaders request ⟨0, -1⟩ rfl rfl response x sent
    hexecute hsent

end Atmos
