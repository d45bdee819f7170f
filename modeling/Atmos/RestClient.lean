import Mathlib.Data.List.TakeWhile
import Atmos.ByteText
import Atmos.FileStream

/-!
# The REST client underneath

The library hands its requests to `rest-client-c`, which is not part of the
repository.  This file holds the request object as the library uses it, and
`RestClient`: the two things the library asks of that package beyond
appending a header line.

* `getHeaderValue` — the value of the first header with a name, in any letter
  case;
* `getHeaderValue_eq_of_perm` — if there is at most one such header, the order
  of the lines does not matter.
-/

namespace Atmos

open ByteText

/-- `enum http_method` -/
inductive HttpMethod where
  | post
  | get
  | put
  | delete
  | head
  | options
  deriving DecidableEq, Repr

/-- The body a request carries: bytes in memory, or a number of bytes to be read
from a file. -/
inductive BodySource where
  | array (data : List UInt8)
  | file (f : FileStream) (dataSize : Int)
  deriving DecidableEq, Repr

/-- `RestRequestBody`.  Where `fileFilter` is set, the pieces read from the file
also go to `AtmosWriteObjectRequest_checksum_filter`. -/
structure RequestBody where
  source : BodySource
  contentType : Option CStr
  fileFilter : Bool
  deriving DecidableEq, Repr

/-- `RestRequest`: the header lines are kept as written, in the order in which
they were added. -/
structure RestRequest where
  uri : CStr
  method : HttpMethod
  headers : List CStr
  requestBody : Option RequestBody
  deriving DecidableEq, Repr

namespace RestRequest

/-- `RestRequest_init` -/
def init (uri : CStr) (method : HttpMethod) : RestRequest :=
  { uri, method, headers := [], requestBody := none }

/-- `RestRequest_set_array_body` -/
def setArrayBody (r : RestRequest) (data : List UInt8) (contentType : Option CStr) :
    RestRequest :=
  { r with requestBody := some { source := .array data, contentType, fileFilter := false } }

/-- `RestRequest_set_file_body` -/
def setFileBody (r : RestRequest) (f : FileStream) (dataSize : Int)
    (contentType : Option CStr) : RestRequest :=
  { r with requestBody := some { source := .file f dataSize, contentType, fileFilter := false } }

/-- `RestRequest_add_header` appends a copy of the line. -/
def addHeader (r : RestRequest) (line : CStr) : RestRequest :=
  { r with headers := r.headers ++ [line] }

@[simp] theorem addHeader_headers (r : RestRequest) (line : CStr) :
    (r.addHeader line).headers = r.headers ++ [line] := rfl

@[simp] theorem addHeader_uri (r : RestRequest) (line : CStr) :
    (r.addHeader line).uri = r.uri := rfl

@[simp] theorem addHeader_method (r : RestRequest) (line : CStr) :
    (r.addHeader line).method = r.method := rfl

@[simp] theorem addHeader_requestBody (r : RestRequest) (line : CStr) :
    (r.addHeader line).requestBody = r.requestBody := rfl

end RestRequest

/-! ## Header names -/

/-- The name of a header line: the text before the first colon. -/
def headerName (line : CStr) : CStr := line.takeWhile (· ≠ colon)

/-- Whether a line is the header with this name, in any letter case. -/
def nameIs (name line : CStr) : Bool :=
  ByteText.lowercase (headerName line) = ByteText.lowercase name

theorem headerName_append {name : CStr} (h : colon ∉ name) (rest : CStr) :
    headerName (name ++ colon :: rest) = name := by
  induction name with
  | nil => simp [headerName]
  | cons b s ih =>
      have hb : b ≠ colon := fun heq => h (by simp [heq])
      have hs : colon ∉ s := fun hm => h (List.mem_cons_of_mem _ hm)
      have htail : (s ++ colon :: rest).takeWhile (· ≠ colon) = s := ih hs
      rw [headerName, List.cons_append, List.takeWhile_cons_of_pos (by simpa using hb),
        htail]

/-- A line with a colon is its name, the colon and the rest. -/
theorem exists_header_line {line : CStr} (h : colon ∈ line) :
    ∃ name rest, colon ∉ name ∧ line = name ++ colon :: rest ∧
      headerName line = name := by
  obtain ⟨name, rest, rfl, hname⟩ := List.eq_append_cons_of_mem h
  exact ⟨name, rest, hname, rfl, headerName_append hname rest⟩

/-- A header line as the library writes most of them. -/
def headerLine (name value : CStr) : CStr := name ++ bytes ": " ++ value

theorem headerLine_eq (name value : CStr) :
    headerLine name value = name ++ colon :: space :: value := by
  have hsep : bytes ": " = [colon, space] := by decide
  rw [headerLine, hsep, List.append_assoc]
  rfl

theorem headerLine_injective (name : CStr) : Function.Injective (headerLine name) :=
  fun _ _ h => List.append_cancel_left h

theorem colon_mem_headerLine (name value : CStr) : colon ∈ headerLine name value := by
  rw [headerLine_eq]
  exact List.mem_append_right _ (List.mem_cons_self ..)

theorem nameIs_line {name : CStr} (hname : colon ∉ name) (name' value : CStr) :
    nameIs name' (name ++ colon :: value) =
      decide (ByteText.lowercase name = ByteText.lowercase name') := by
  rw [nameIs, headerName_append hname]

theorem nameIs_headerLine {name : CStr} (hname : colon ∉ name) (name' value : CStr) :
    nameIs name' (headerLine name value) =
      decide (ByteText.lowercase name = ByteText.lowercase name') := by
  rw [headerLine_eq, nameIs_line hname]

/-! ## The contract -/

/-- What the library relies on in `rest-client-c`: which part of a line is the
header's value, and which lines `RestFilter_set_content_headers` appends. -/
structure RestClient where
  headerValue : CStr → CStr
  /-- The value starts behind the first colon and the spaces after it. -/
  headerValue_line : ∀ name n value, colon ∉ name → value.head? ≠ some space →
    headerValue (name ++ colon :: (List.replicate n space ++ value)) = value
  contentHeaders : RestRequest → List CStr
  contentHeaders_line : ∀ r, ∀ line ∈ contentHeaders r,
    colon ∈ line ∧ ¬ bytes "x-emc" <+: ByteText.lowercase line

namespace RestClient

variable (rest : RestClient)

/-- `RestRequest_get_header` -/
def getHeader (headers : List CStr) (name : CStr) : Option CStr := headers.find? (nameIs name)

/-- `RestRequest_get_header_value` -/
def getHeaderValue (headers : List CStr) (name : CStr) : Option CStr :=
  (getHeader headers name).map rest.headerValue

/-- The value of a line is what stands behind the colon, without leading
spaces. -/
theorem headerValue_tail {name : CStr} (hname : colon ∉ name) (tail : CStr) :
    rest.headerValue (name ++ colon :: tail) = tail.dropWhile (· == space) := by
  have hspaces : tail.takeWhile (· == space) =
      List.replicate (tail.takeWhile (· == space)).length space := by
    apply List.eq_replicate_of_mem
    intro b hb
    have hspace := List.mem_takeWhile_imp hb
    simpa using hspace
  have hvalue := rest.headerValue_line name (tail.takeWhile (· == space)).length
    (tail.dropWhile (· == space)) hname (head?_dropWhile_ne space tail)
  rwa [← hspaces, List.takeWhile_append_dropWhile] at hvalue

theorem headerValue_headerLine {name value : CStr} (hname : colon ∉ name)
    (hvalue : value.head? ≠ some space) :
    rest.headerValue (headerLine name value) = value := by
  rw [headerLine_eq]
  exact rest.headerValue_line name 1 value hname hvalue

theorem getHeaderValue_nil (name : CStr) : rest.getHeaderValue [] name = none := rfl

theorem getHeaderValue_cons (line : CStr) (headers : List CStr) (name : CStr) :
    rest.getHeaderValue (line :: headers) name =
      if nameIs name line then some (rest.headerValue line)
      else rest.getHeaderValue headers name := by
  rw [getHeaderValue, getHeader, List.find?_cons]
  cases nameIs name line <;> rfl

/-- The value of a line is its end. -/
theorem headerValue_suffix {line : CStr} (h : colon ∈ line) :
    rest.headerValue line <:+ line := by
  obtain ⟨name, tail, hname, rfl, -⟩ := exists_header_line h
  rw [rest.headerValue_tail hname]
  have hsuffix : tail.dropWhile (· == space) <:+ tail := List.dropWhile_suffix _
  exact hsuffix.trans ⟨name ++ [colon], by simp⟩

/-- A value is a piece of one of the lines. -/
theorem getHeaderValue_mem {headers : List CStr} {name value : CStr}
    (hcolon : ∀ line ∈ headers, colon ∈ line)
    (h : rest.getHeaderValue headers name = some value) :
    ∃ line ∈ headers, value <:+ line := by
  obtain ⟨line, hline, rfl⟩ := Option.map_eq_some_iff.mp h
  have hmem := List.mem_of_find?_eq_some hline
  exact ⟨line, hmem, rest.headerValue_suffix (hcolon line hmem)⟩

/-- Lines of other names do not matter. -/
theorem getHeaderValue_filter (headers : List CStr) (name : CStr) :
    rest.getHeaderValue (headers.filter (nameIs name)) name =
      rest.getHeaderValue headers name := by
  rw [getHeaderValue, getHeaderValue, getHeader, getHeader, List.find?_filter]
  simp

/-- **At most one header of a name.**  Then its value does not depend on the
order of the lines. -/
theorem getHeaderValue_eq_of_perm {headers headers' : List CStr} {name : CStr}
    (hone : (headers.filter (nameIs name)).length ≤ 1)
    (hperm : headers.Perm headers') :
    rest.getHeaderValue headers name = rest.getHeaderValue headers' name := by
  have hfilter := hperm.filter (nameIs name)
  have heq : headers.filter (nameIs name) = headers'.filter (nameIs name) := by
    rcases hlist : headers.filter (nameIs name) with _ | ⟨line, _ | ⟨line', tail⟩⟩
    · rw [hlist] at hfilter
      exact hfilter.nil_eq
    · rw [hlist] at hfilter
      exact (List.singleton_perm.mp hfilter)
    · rw [hlist] at hone
      simp at hone
  rw [← getHeaderValue_filter, heq, getHeaderValue_filter]

/-- A client with the documented reading of header lines, which states the type
and the length of a body. -/
def plain : RestClient where
  headerValue line := ((line.dropWhile (· ≠ colon)).drop 1).dropWhile (· == space)
  headerValue_line name n value hname hvalue := by
    have hskip : (name ++ colon :: (List.replicate n space ++ value)).dropWhile (· ≠ colon)
        = colon :: (List.replicate n space ++ value) := by
      rw [List.dropWhile_append_of_pos, List.dropWhile_cons_of_neg (by simp)]
      intro b hb
      have hne : b ≠ colon := fun heq => hname (heq ▸ hb)
      simpa using hne
    have hkeep : value.dropWhile (· == space) = value := by
      cases value with
      | nil => rfl
      | cons b value =>
          have hb : b ≠ space := fun heq => hvalue (by simp [heq])
          rw [List.dropWhile_cons_of_neg (by simpa using hb)]
    rw [hskip, List.drop_succ_cons, List.drop_zero,
      List.dropWhile_append_of_pos (by simp), hkeep]
  contentHeaders r :=
    match r.requestBody with
    | none => []
    | some body =>
        (body.contentType.toList.map fun type => bytes "Content-Type: " ++ type) ++
        [bytes "Content-Length: " ++ decimal (match body.source with
          | .array data => data.length
          | .file _ dataSize => dataSize)]
  contentHeaders_line r line h := by
    -- the line starts with a fixed name that is not an `x-emc` name
    have hfixed : ∀ name text, colon ∈ name → 5 ≤ name.length →
        ¬ bytes "x-emc" <+: ByteText.lowercase name →
        colon ∈ name ++ text ∧ ¬ bytes "x-emc" <+: ByteText.lowercase (name ++ text) := by
      intro name text hcolon hlength hname
      refine ⟨List.mem_append_left _ hcolon, ?_⟩
      intro hemc
      rw [lowercase_append] at hemc
      apply hname
      apply List.prefix_of_prefix_length_le hemc (List.prefix_append _ _)
      rw [length_lowercase]
      exact hlength
    split at h
    · cases h
    · rcases List.mem_append.mp h with h | h
      · obtain ⟨type, -, rfl⟩ := List.mem_map.mp h
        exact hfixed _ type (by decide) (by decide) (by decide)
      · rw [List.mem_singleton.mp h]
        exact hfixed _ _ (by decide) (by decide) (by decide)

end RestClient

end Atmos
