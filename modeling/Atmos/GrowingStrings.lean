import Atmos.RequestFilters

/-!
# Growing strings

`AtmosUtil_cstring_append` and `AtmosUtil_cstring_append_utf8` add a text to the
string in an allocated buffer, which they enlarge where it is too small.  The
pair of the buffer and its size is threaded through the calls; a call that
cannot encode its text or enlarge the buffer leaves both alone.

* `appendCall_spec` — what one call stores, and that it stores it inside the
  buffer;
* `run_spec` — a whole run, whatever calls fail;
* `cstring_append_content_iff` — the content is what the calls were given, if
  and only if no length is cut on its way to `curl_easy_escape`.

Sizes are numbers without an upper bound; the length that is handed to
`curl_easy_escape` is an `int`.
-/

namespace Atmos

open ByteText FixedMemory

/-! ## The buffer -/

/-- An allocated object. -/
structure Buffer where
  size : Nat
  block : Block size

/-- `buf` and `bufsz`. -/
structure GrowingString where
  buf : Option Buffer
  bufsz : Nat

/-- The functions of the C library and of libcurl that may fail, at one call. -/
structure Libraries where
  /-- `curl_easy_escape` -/
  easyEscape : CStr → Int32 → Option CStr
  /-- `realloc` -/
  realloc : Option Buffer → Nat → Option Buffer

/-- The documented behaviour of a call that does not fail.  A negative length is
refused; `realloc` keeps the bytes of the object and leaves new ones
undefined. -/
structure Libraries.Documented (libs : Libraries) : Prop where
  escape : ∀ str length encoded, length.toInt ≤ str.length →
    libs.easyEscape str length = some encoded →
    0 ≤ length.toInt ∧ encoded = PercentEncoding.encode (escapedPart str length)
  size : ∀ buf newsize buf2, libs.realloc buf newsize = some buf2 → buf2.size = newsize
  keeps : ∀ (buf : Buffer) newsize buf2, buf.size ≤ newsize →
    libs.realloc (some buf) newsize = some buf2 → buf.block.mem <+: buf2.block.mem

/-- `realloc` where memory does not run out, with zeros behind the old bytes. -/
def resized (buf : Option Buffer) (newsize : Nat) : Buffer :=
  ⟨newsize, Block.strncpy (buf.elim [] fun old => old.block.mem)⟩

/-- Libraries that only refuse negative lengths. -/
def Libraries.standard : Libraries where
  easyEscape str length :=
    if length.toInt < 0 then none else some (PercentEncoding.encode (escapedPart str length))
  realloc buf newsize := some (resized buf newsize)

theorem Libraries.standard_documented : Libraries.standard.Documented where
  escape str length encoded _ h := by
    rw [Libraries.standard] at h
    dsimp only at h
    split at h
    · cases h
    · rename_i hnonneg
      exact ⟨Int.not_lt.mp hnonneg, (Option.some.inj h).symm⟩
  size buf newsize buf2 h := by
    obtain rfl := Option.some.inj h
    rfl
  keeps buf newsize buf2 hle h := by
    obtain rfl := Option.some.inj h
    have hwhole : buf.block.mem.length ≤ newsize := by
      rw [buf.block.size]
      exact hle
    have hmem : (resized (some buf) newsize).block.mem =
        FixedMemory.strncpy buf.block.mem newsize := rfl
    rw [hmem, FixedMemory.strncpy, List.take_of_length_le hwhole]
    exact List.prefix_append _ _

namespace GrowingString

/-- The pair before the first call. -/
def start : GrowingString := ⟨none, 0⟩

/-- The content; none if the buffer holds no string. -/
def text (string : GrowingString) : Option CStr :=
  string.buf.elim (some []) fun buf => buf.block.cstrAt 0

/-- How a call ends. -/
inductive Exit
  | appended
  | encodeFailed
  | reallocFailed
deriving DecidableEq

/-- Enlarge the buffer where it is too small; none if `realloc` fails. -/
def reserve (libs : Libraries) (string : GrowingString) (bufpos strsz : Nat) :
    Option (Buffer × Nat) :=
  let newsize := string.bufsz + strsz + 256
  let grown := (libs.realloc string.buf newsize).map fun buf2 => (buf2, newsize)
  match string.buf with
  | none => grown
  | some buf => if bufpos + strsz + 1 > string.bufsz then grown else some (buf, string.bufsz)

/-- `strcpy(buf + bufpos, str)` and `buf[bufpos + strsz] = 0`; none past the end
of the buffer. -/
def copyAt (buf : Buffer) (bufpos : Nat) (str : CStr) : Option Buffer := do
  let block ← buf.block.write bufpos (str ++ [0])
  let block ← block.write (bufpos + str.length) [0]
  some ⟨buf.size, block⟩

/-- `AtmosUtil_cstring_append`; none where it reads or writes outside the
buffer. -/
def cstringAppend (libs : Libraries) (string : GrowingString) (str : CStr) :
    Option (Exit × GrowingString) :=
  string.text.bind fun text =>
    match reserve libs string text.length str.length with
    | none => some (.reallocFailed, string)
    | some (buf, bufsz) =>
        (copyAt buf text.length str).map fun buf => (.appended, ⟨some buf, bufsz⟩)

/-- `AtmosUtil_cstring_append_utf8`. -/
def cstringAppendUtf8 (libs : Libraries) (string : GrowingString) (str : CStr) :
    Option (Exit × GrowingString) :=
  match libs.easyEscape str (Int32.ofNat str.length) with
  | none => some (.encodeFailed, string)
  | some encoded => cstringAppend libs string encoded

/-! ## The calls -/

/-- A call of one of the two functions. -/
structure Call where
  utf8 : Bool
  str : CStr
  nul : (0 : UInt8) ∉ str

/-- What the call should append. -/
def Call.argument (call : Call) : CStr :=
  if call.utf8 then PercentEncoding.encode call.str else call.str

def appendCall (libs : Libraries) (string : GrowingString) (call : Call) :
    Option (Exit × GrowingString) :=
  if call.utf8 then cstringAppendUtf8 libs string call.str
  else cstringAppend libs string call.str

/-- A run of calls, each with its libraries: the calls that did not fail, in
order, and the pair after the last one; none where a call reads or writes
outside the buffer. -/
def run : List (Call × Libraries) → GrowingString → Option (List Call × GrowingString)
  | [], string => some ([], string)
  | (call, libs) :: steps, string => do
      let (exit, string) ← appendCall libs string call
      let (succeeded, string) ← run steps string
      some (if exit = .appended then call :: succeeded else succeeded, string)

/-- The buffer is `NULL`, or has `bufsz` bytes with a string and its
terminator. -/
def Valid (string : GrowingString) : Prop :=
  ∀ buf, string.buf = some buf → buf.size = string.bufsz ∧
    ∃ text, buf.block.cstrAt 0 = some text ∧ text.length + 1 ≤ string.bufsz

/-! ## One call -/

variable {libs : Libraries} {string : GrowingString} {text : CStr}

theorem notMem_text (htext : string.text = some text) : (0 : UInt8) ∉ text := by
  unfold GrowingString.text at htext
  cases hbuf : string.buf with
  | none =>
      rw [hbuf] at htext
      obtain rfl := Option.some.inj htext
      exact List.not_mem_nil
  | some buf =>
      rw [hbuf] at htext
      exact (readCStr_eq_some htext).1

/-- **The buffer that is written** has room for the text and its terminator
behind the content, and still begins with the content. -/
theorem reserve_spec (hlibs : libs.Documented) (hvalid : string.Valid)
    (htext : string.text = some text) {strsz : Nat} {buf : Buffer} {bufsz : Nat}
    (h : reserve libs string text.length strsz = some (buf, bufsz)) :
    buf.size = bufsz ∧ text.length + strsz + 1 ≤ bufsz ∧ text <+: buf.block.mem := by
  unfold reserve at h
  unfold GrowingString.text at htext
  dsimp only at h
  cases hbuf : string.buf with
  | none =>
      rw [hbuf] at h htext
      obtain rfl : [] = text := Option.some.inj htext
      obtain ⟨buf2, hgrown, heq⟩ := Option.map_eq_some_iff.mp h
      obtain ⟨rfl, rfl⟩ := Prod.mk.inj heq
      refine ⟨hlibs.size _ _ _ hgrown, ?_, List.nil_prefix⟩
      rw [List.length_nil]
      omega
  | some old =>
      rw [hbuf] at h htext
      obtain ⟨hsize, text', hread, hroom⟩ := hvalid old hbuf
      obtain rfl : text' = text := Option.some.inj (hread.symm.trans htext)
      have hold : text' <+: old.block.mem := by
        obtain ⟨-, rest, hrest⟩ := readCStr_eq_some hread
        rw [List.drop_zero] at hrest
        exact ⟨0 :: rest, hrest.symm⟩
      dsimp only at h
      split at h
      · obtain ⟨buf2, hgrown, heq⟩ := Option.map_eq_some_iff.mp h
        obtain ⟨rfl, rfl⟩ := Prod.mk.inj heq
        have hkept := hlibs.keeps old _ buf2 (by omega) hgrown
        exact ⟨hlibs.size _ _ _ hgrown, by omega, hold.trans hkept⟩
      · obtain ⟨rfl, rfl⟩ := Prod.mk.inj (Option.some.inj h)
        exact ⟨hsize, by omega, hold⟩

/-- **The copy** stays inside the buffer and appends the text. -/
theorem copyAt_spec {buf : Buffer} {str : CStr} (hcontent : text <+: buf.block.mem)
    (hroom : text.length + str.length + 1 ≤ buf.size) (hnul : (0 : UInt8) ∉ text ++ str) :
    ∃ buf2, copyAt buf text.length str = some buf2 ∧ buf2.size = buf.size ∧
      buf2.block.cstrAt 0 = some (text ++ str) := by
  have hfits : text.length + (str ++ [0]).length ≤ buf.size := by
    rw [List.length_append, List.length_singleton]
    omega
  let copied := buf.block.put text.length (str ++ [0]) hfits
  have hread : copied.cstrAt 0 = some (text ++ str) :=
    Block.put_cstrAt_behind hcontent hnul hfits
  have hlast : text.length + str.length + [(0 : UInt8)].length ≤ buf.size := hroom
  have hend : (text ++ str).length = text.length + str.length := List.length_append
  have hagain := Block.put_cstrAt_splice hread hend.ge List.not_mem_nil hlast
  rw [List.append_nil, List.take_of_length_le hend.le] at hagain
  refine ⟨⟨buf.size, copied.put (text.length + str.length) [0] hlast⟩, ?_, rfl, hagain⟩
  rw [copyAt, Block.write_of_fits buf.block hfits, Option.bind_eq_bind, Option.bind_some,
    Block.write_of_fits copied hlast]
  rfl

/-- A text is stored behind the content, or the call fails and leaves the pair
alone. -/
def Leaves (string : GrowingString) (text str : CStr) (exit : Exit)
    (string' : GrowingString) : Prop :=
  exit = .appended ∧ string'.Valid ∧ string'.text = some (text ++ str) ∨
    exit ≠ .appended ∧ string' = string

/-- **An append** stores its text or leaves the pair alone. -/
theorem cstringAppend_spec (hlibs : libs.Documented) (hvalid : string.Valid)
    (htext : string.text = some text) {str : CStr} (hnul : (0 : UInt8) ∉ str) :
    ∃ exit string', cstringAppend libs string str = some (exit, string') ∧
      Leaves string text str exit string' := by
  have hboth : (0 : UInt8) ∉ text ++ str := by
    rw [List.mem_append]
    exact fun h => h.elim (notMem_text htext) hnul
  rw [cstringAppend, htext, Option.bind_some]
  cases hreserve : reserve libs string text.length str.length with
  | none => exact ⟨.reallocFailed, string, rfl, .inr ⟨by decide, rfl⟩⟩
  | some reserved =>
      obtain ⟨buf, bufsz⟩ := reserved
      obtain ⟨hsize, hroom, hcontent⟩ := reserve_spec hlibs hvalid htext hreserve
      obtain ⟨buf2, hcopy, hsize2, hread⟩ :=
        copyAt_spec hcontent (by rw [hsize]; exact hroom) hboth
      refine ⟨.appended, ⟨some buf2, bufsz⟩, ?_, .inl ⟨rfl, ?_, hread⟩⟩
      · dsimp only
        rw [hcopy]
        rfl
      · intro buf3 hbuf3
        obtain rfl := Option.some.inj hbuf3
        refine ⟨hsize2.trans hsize, text ++ str, hread, ?_⟩
        rw [List.length_append]
        exact hroom

/-- What a call stores where it does not fail. -/
def Call.stored (call : Call) : CStr :=
  if call.utf8 then
    PercentEncoding.encode (escapedPart call.str (Int32.ofNat call.str.length))
  else call.str

/-- The length of the text is not negative for `curl_easy_escape`. -/
def Call.Accepted (call : Call) : Prop :=
  call.utf8 = true → 0 ≤ (Int32.ofNat call.str.length).toInt

/-- **One call** stores its text or leaves the pair alone; it stores none whose
length is negative. -/
theorem appendCall_spec (hlibs : libs.Documented) (hvalid : string.Valid)
    (htext : string.text = some text) (call : Call) :
    ∃ exit string', appendCall libs string call = some (exit, string') ∧
      (exit = .appended → call.Accepted) ∧ Leaves string text call.stored exit string' := by
  unfold appendCall Call.stored Call.Accepted
  cases call.utf8 with
  | false =>
      obtain ⟨exit, string', hrun, hleaves⟩ := cstringAppend_spec hlibs hvalid htext call.nul
      exact ⟨exit, string', hrun, fun _ h => absurd h Bool.false_ne_true, hleaves⟩
  | true =>
      rw [if_pos rfl, if_pos rfl, cstringAppendUtf8]
      cases hescape : libs.easyEscape call.str (Int32.ofNat call.str.length) with
      | none =>
          refine ⟨.encodeFailed, string, rfl, ?_, .inr ⟨by decide, rfl⟩⟩
          intro h
          cases h
      | some encoded =>
          obtain ⟨hlength, rfl⟩ :=
            hlibs.escape call.str _ encoded (toInt_ofNat_le call.str.length) hescape
          have hnul : (0 : UInt8) ∉ PercentEncoding.encode
              (escapedPart call.str (Int32.ofNat call.str.length)) :=
            PercentEncoding.notMem_encode (by decide) (by decide) _
          obtain ⟨exit, string', hrun, hleaves⟩ := cstringAppend_spec hlibs hvalid htext hnul
          exact ⟨exit, string', hrun, fun _ _ => hlength, hleaves⟩

/-! ## A run -/

theorem run_cons {call : Call} {steps : List (Call × Libraries)} {exit : Exit}
    {string₁ string₂ : GrowingString} {succeeded : List Call}
    (hcall : appendCall libs string call = some (exit, string₁))
    (hrun : run steps string₁ = some (succeeded, string₂)) :
    run ((call, libs) :: steps) string =
      some (if exit = .appended then call :: succeeded else succeeded, string₂) := by
  simp only [run, hcall, hrun, Option.bind_eq_bind, Option.bind_some]

/-- **A run** never leaves the buffer; its content is what the calls that did not
fail stored. -/
theorem run_spec {steps : List (Call × Libraries)} (hlibs : ∀ step ∈ steps, step.2.Documented)
    (hvalid : string.Valid) (htext : string.text = some text) :
    ∃ succeeded string', run steps string = some (succeeded, string') ∧ string'.Valid ∧
      string'.text = some (text ++ succeeded.flatMap Call.stored) ∧
      ∀ call ∈ succeeded, call.Accepted ∧ call ∈ steps.map (·.1) := by
  induction steps generalizing string text with
  | nil =>
      refine ⟨[], string, rfl, hvalid, ?_, ?_⟩
      · rw [List.flatMap_nil, List.append_nil]
        exact htext
      · intro call hcall
        cases hcall
  | cons step steps ih =>
      obtain ⟨call, libs⟩ := step
      have hfirst := hlibs (call, libs) List.mem_cons_self
      have hrest : ∀ step ∈ steps, step.2.Documented :=
        fun step hstep => hlibs step (List.mem_cons_of_mem _ hstep)
      obtain ⟨exit, string₁, hcall, haccepted, hleaves⟩ :=
        appendCall_spec hfirst hvalid htext call
      rcases hleaves with ⟨rfl, hvalid₁, htext₁⟩ | ⟨hexit, rfl⟩
      · obtain ⟨succeeded, string₂, hrun, hvalid₂, htext₂, hmem⟩ := ih hrest hvalid₁ htext₁
        refine ⟨call :: succeeded, string₂, ?_, hvalid₂, ?_, ?_⟩
        · rw [run_cons hcall hrun, if_pos rfl]
        · rw [List.flatMap_cons, ← List.append_assoc]
          exact htext₂
        · intro other hother
          rcases List.mem_cons.mp hother with rfl | hother
          · exact ⟨haccepted rfl, List.mem_cons_self⟩
          · exact ⟨(hmem other hother).1, List.mem_cons_of_mem _ (hmem other hother).2⟩
      · obtain ⟨succeeded, string₂, hrun, hvalid₂, htext₂, hmem⟩ := ih hrest hvalid htext
        refine ⟨succeeded, string₂, ?_, hvalid₂, htext₂, ?_⟩
        · rw [run_cons hcall hrun, if_neg hexit]
        · intro other hother
          exact ⟨(hmem other hother).1, List.mem_cons_of_mem _ (hmem other hother).2⟩

/-! ## The content -/

/-- The length of a text that is encoded is not cut: as an `int` it is the length
still, or not positive. -/
def Call.Intact (call : Call) : Prop :=
  call.utf8 = true →
    (Int32.ofNat call.str.length).toInt ≤ 0 ∨
      (Int32.ofNat call.str.length).toInt = call.str.length

/-- A length from 2³¹ on to 2³² is a negative `int`, and the call fails. -/
theorem Call.intact_of_length_lt {call : Call} (h : call.str.length < 4294967296) :
    call.Intact := by
  have hsize : Int32.size = 4294967296 := rfl
  intro _
  rw [Int32.toInt_ofNat', Int.bmod_def, hsize]
  split <;> omega

/-- No call stores more than it should. -/
theorem Call.length_stored_le (call : Call) : call.stored.length ≤ call.argument.length := by
  unfold Call.stored Call.argument
  split
  · obtain ⟨rest, hrest⟩ := escapedPart_prefix call.str (Int32.ofNat call.str.length)
    have hencode : PercentEncoding.encode call.str =
        PercentEncoding.encode (escapedPart call.str (Int32.ofNat call.str.length)) ++
          PercentEncoding.encode rest := by
      rw [PercentEncoding.encode, PercentEncoding.encode, PercentEncoding.encode,
        ← List.flatMap_append, hrest]
    rw [hencode, List.length_append]
    exact Nat.le_add_right _ _
  · exact Nat.le_refl _

/-- **A call stores what it should** exactly when the length is not cut. -/
theorem Call.stored_eq_argument_iff {call : Call} (haccepted : call.Accepted) :
    call.stored = call.argument ↔ call.Intact := by
  unfold Call.stored Call.argument Call.Intact
  cases hutf8 : call.utf8 with
  | false => simp
  | true =>
      have hnonneg := haccepted hutf8
      have hle := toInt_ofNat_le call.str.length
      have hclamp : (Int32.ofNat call.str.length).toNatClampNeg =
          (Int32.ofNat call.str.length).toInt.toNat := rfl
      rw [if_pos rfl, if_pos rfl, PercentEncoding.encode_injective.eq_iff,
        escapedPart_eq_self_iff, int32_eq_zero_iff, hclamp]
      constructor
      · intro h _
        omega
      · intro h
        have hcut := h rfl
        omega

theorem start_valid : start.Valid := by
  intro buf hbuf
  cases hbuf

/-- After some calls the pair is as it should be: no call has left the buffer,
and the content is what the calls that did not fail were given. -/
def Grows (steps : List (Call × Libraries)) : Prop :=
  ∃ succeeded string, run steps start = some (succeeded, string) ∧ string.Valid ∧
    string.text = some (succeeded.flatMap Call.argument)

/-- **The content of a run** is what the calls were given exactly when no length
has been cut. -/
theorem grows_iff {steps : List (Call × Libraries)} {succeeded : List Call}
    (hlibs : ∀ step ∈ steps, step.2.Documented)
    (hrun : run steps start = some (succeeded, string)) :
    Grows steps ↔ ∀ call ∈ succeeded, call.Intact := by
  obtain ⟨succeeded', string', hrun', hvalid, htext, hmem⟩ := run_spec hlibs start_valid rfl
  obtain ⟨rfl, rfl⟩ := Prod.mk.inj (Option.some.inj (hrun.symm.trans hrun'))
  have hsame : succeeded.flatMap Call.stored = succeeded.flatMap Call.argument ↔
      ∀ call ∈ succeeded, call.Intact := by
    rw [flatMap_eq_iff_of_length_le Call.length_stored_le]
    exact forall₂_congr fun call hcall => Call.stored_eq_argument_iff (hmem call hcall).1
  rw [← hsame]
  constructor
  · intro ⟨succeeded', string', hrun', _, htext'⟩
    obtain ⟨rfl, rfl⟩ := Prod.mk.inj (Option.some.inj (hrun.symm.trans hrun'))
    exact Option.some.inj (htext.symm.trans htext')
  · intro heq
    refine ⟨succeeded, string, hrun, hvalid, ?_⟩
    rw [← heq]
    exact htext

/-! ## Libraries that do not fail -/

theorem cstringAppend_standard {str : CStr} {exit : Exit} {string' : GrowingString}
    (h : cstringAppend .standard string str = some (exit, string')) : exit = .appended := by
  obtain ⟨text, -, h⟩ := Option.bind_eq_some_iff.mp h
  have hreserve : reserve .standard string text.length str.length ≠ none := by
    unfold reserve
    dsimp only
    split
    · exact Option.some_ne_none _
    · split <;> exact Option.some_ne_none _
  cases hreserved : reserve .standard string text.length str.length with
  | none => exact absurd hreserved hreserve
  | some reserved =>
      rw [hreserved] at h
      obtain ⟨buf, -, heq⟩ := Option.map_eq_some_iff.mp h
      exact (Prod.mk.inj heq).1.symm

theorem appendCall_standard {call : Call} {exit : Exit} {string' : GrowingString}
    (haccepted : call.Accepted) (h : appendCall .standard string call = some (exit, string')) :
    exit = .appended := by
  unfold appendCall at h
  split at h
  · rename_i hutf8
    have hescape : Libraries.standard.easyEscape call.str (Int32.ofNat call.str.length) =
        some (PercentEncoding.encode (escapedPart call.str (Int32.ofNat call.str.length))) :=
      if_neg (Int.not_lt.mpr (haccepted hutf8))
    rw [cstringAppendUtf8, hescape] at h
    exact cstringAppend_standard h
  · exact cstringAppend_standard h

/-- Then every call whose length is not negative succeeds. -/
theorem run_standard (calls : List Call) (hvalid : string.Valid)
    (htext : string.text = some text) :
    ∃ succeeded string', run (calls.map fun call => (call, .standard)) string =
        some (succeeded, string') ∧
      ∀ call ∈ calls, call.Accepted → call ∈ succeeded := by
  induction calls generalizing string text with
  | nil => exact ⟨[], string, rfl, fun call hcall => absurd hcall List.not_mem_nil⟩
  | cons call calls ih =>
      obtain ⟨exit, string₁, hcall, -, hleaves⟩ :=
        appendCall_spec Libraries.standard_documented hvalid htext call
      have hnext : ∃ text₁, string₁.Valid ∧ string₁.text = some text₁ := by
        rcases hleaves with ⟨-, hvalid₁, htext₁⟩ | ⟨-, rfl⟩
        · exact ⟨_, hvalid₁, htext₁⟩
        · exact ⟨text, hvalid, htext⟩
      obtain ⟨text₁, hvalid₁, htext₁⟩ := hnext
      obtain ⟨succeeded, string₂, hrun, hmem⟩ := ih hvalid₁ htext₁
      refine ⟨_, string₂, run_cons hcall hrun, ?_⟩
      intro other hother haccepted
      rcases List.mem_cons.mp hother with rfl | hother
      · rw [if_pos (appendCall_standard haccepted hcall)]
        exact List.mem_cons_self
      · have hsucceeded := hmem other hother haccepted
        split
        · exact List.mem_cons_of_mem call hsucceeded
        · exact hsucceeded

/-! ## The main results -/

/-- A cut length shows where nothing else fails. -/
theorem not_grows_of_cut {calls : List Call} {call : Call} (hmem : call ∈ calls)
    (hcut : ¬ call.Intact) : ¬ Grows (calls.map fun call => (call, .standard)) := by
  have haccepted : call.Accepted := by
    intro hutf8
    by_contra hneg
    exact hcut fun _ => .inl (by omega)
  have hlibs : ∀ step ∈ calls.map fun call => (call, Libraries.standard),
      step.2.Documented := by
    intro step hstep
    obtain ⟨other, -, rfl⟩ := List.mem_map.mp hstep
    exact Libraries.standard_documented
  obtain ⟨succeeded, string, hrun, hsucceeded⟩ := run_standard calls start_valid rfl
  rw [grows_iff hlibs hrun]
  exact fun hintact => hcut (hintact call (hsucceeded call hmem haccepted))

/-- **The content is the concatenation of the arguments.**  For any calls and any
pattern of failures, no call leaves the buffer, which stays valid, and the
content is what the calls that did not fail were given, if and only if every
text that is to be encoded has a length that is not cut. -/
theorem cstring_append_content_iff (calls : List Call) :
    (∀ steps : List (Call × Libraries), steps.map (·.1) = calls →
        (∀ step ∈ steps, step.2.Documented) → ∀ done, done <+: steps → Grows done) ↔
      ∀ call ∈ calls, call.Intact := by
  constructor
  · intro h call hcall
    by_contra hcut
    refine not_grows_of_cut hcall hcut (h _ ?_ ?_ _ List.prefix_rfl)
    · rw [List.map_map]
      exact List.map_id calls
    · intro step hstep
      obtain ⟨other, -, rfl⟩ := List.mem_map.mp hstep
      exact Libraries.standard_documented
  · intro hintact steps hsteps hlibs done hdone
    have hdoneLibs : ∀ step ∈ done, step.2.Documented :=
      fun step hstep => hlibs step (hdone.subset hstep)
    obtain ⟨succeeded, string, hrun, -, -, hmem⟩ := run_spec hdoneLibs start_valid rfl
    rw [grows_iff hdoneLibs hrun]
    intro call hcall
    apply hintact
    rw [← hsteps]
    exact (hdone.map (·.1)).subset (hmem call hcall).2

example :
    (run [(⟨false, bytes "disposition=", by decide⟩, .standard),
        (⟨true, bytes "a b", by decide⟩, .standard)] start).bind (·.2.text) =
      some (bytes "disposition=a%20b") := by
  decide +kernel

/-- A text of 2³² + 1 bytes. -/
def longCall : Call where
  utf8 := true
  str := List.replicate 4294967297 97
  nul h := absurd (List.eq_of_mem_replicate h) (by decide)

/-- Its length is 1 as an `int`, so that only its first byte is appended. -/
theorem long_text_cut :
    Libraries.standard.Documented ∧ ¬ Grows [(longCall, .standard)] := by
  have hlength : longCall.str.length = 4294967297 := List.length_replicate
  have hint : (Int32.ofNat 4294967297).toInt = 1 := by decide
  have hcut : ¬ longCall.Intact := by
    intro h
    have hcases := h rfl
    rw [hlength, hint] at hcases
    omega
  have hgrows := not_grows_of_cut (List.mem_singleton_self longCall) hcut
  rw [List.map_singleton] at hgrows
  exact ⟨Libraries.standard_documented, hgrows⟩

/-! ## The filters' texts -/

/-- A call on the text alone, as the filters use it. -/
def appendText (curl : Curl) (buf : CStr) (call : Call) : CStr :=
  if call.utf8 then AtmosUtil.cstringAppendUtf8 curl buf call.str else buf ++ call.str

theorem appendText_eq {curl : Curl} (hcurl : curl.Documented) (buf : CStr) {call : Call}
    (haccepted : call.Accepted) : appendText curl buf call = buf ++ call.stored := by
  unfold appendText Call.stored AtmosUtil.cstringAppendUtf8
  split
  · rename_i hutf8
    have htext : escapedText call.str =
        escapedPart call.str (Int32.ofNat call.str.length) :=
      if_neg (Int.not_lt.mpr (haccepted hutf8))
    rw [hcurl.escapeString_getD, htext]
  · rfl

theorem foldl_appendText {curl : Curl} (hcurl : curl.Documented) {calls : List Call}
    (haccepted : ∀ call ∈ calls, call.Accepted) (buf : CStr) :
    calls.foldl (appendText curl) buf = buf ++ calls.flatMap Call.stored := by
  induction calls generalizing buf with
  | nil => simp
  | cons call calls ih =>
      obtain ⟨hcall, hcalls⟩ := List.forall_mem_cons.mp haccepted
      rw [List.foldl_cons, ih hcalls, appendText_eq hcurl buf hcall, List.flatMap_cons,
        List.append_assoc]

/-- **The buffer holds the filters' text** of the calls that did not fail. -/
theorem run_text {curl : Curl} (hcurl : curl.Documented) {steps : List (Call × Libraries)}
    {succeeded : List Call} (hlibs : ∀ step ∈ steps, step.2.Documented)
    (hrun : run steps start = some (succeeded, string)) :
    string.text = some (succeeded.foldl (appendText curl) []) := by
  obtain ⟨succeeded', string', hrun', -, htext, hmem⟩ := run_spec hlibs start_valid rfl
  obtain ⟨rfl, rfl⟩ := Prod.mk.inj (Option.some.inj (hrun.symm.trans hrun'))
  rw [foldl_appendText hcurl fun call hcall => (hmem call hcall).1]
  exact htext

end GrowingString

end Atmos
