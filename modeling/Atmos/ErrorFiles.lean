import Atmos.PulledStream
import Atmos.UnparsedFailures

/-!
# Errors in files

The answer to a failed request may be in a file.  `libxml2` then reads it through
a callback, which has to stop after the `content_length` bytes of the answer: the
file may go on behind them.

* `fileReadXml_serves` — the callback hands out these bytes, whatever the buffers
  and the results of `fread` are;
* `error_bodies_alike_iff` — so a body in a file is read like one in memory,
  exactly when its length is an `int`.
-/

namespace Atmos

open ByteText FixedMemory XmlTree PulledStream

/-- `XMLFileParseData` -/
structure XMLFileParseData where
  f : FileStream
  contentLength : UInt64
  bytesRead : UInt64

namespace AtmosFilter

/-- `bytes_to_read`, when `fread` is called. -/
def bytesToRead (data : XMLFileParseData) (len : Int32) : UInt64 :=
  let bytesToRead := len.toInt64.toUInt64
  if data.contentLength < bytesToRead + data.bytesRead then data.contentLength - data.bytesRead
  else bytesToRead

/-- `AtmosFilter_file_read_xml`: its result, what it puts into the buffer, and the
data it leaves. -/
def fileReadXml (data : XMLFileParseData) (len : Int32) :
    Int32 × List UInt8 × XMLFileParseData :=
  let (buffer, f) := data.f.fread (bytesToRead data len).toNat
  let read := buffer.length
  (Int32.ofNat read, buffer, { data with f, bytesRead := data.bytesRead + UInt64.ofNat read })

/-! ## One call -/

/-- The body has a length, and no more of it has been read. -/
structure Reads (data : XMLFileParseData) : Prop where
  delivers : data.f.Delivers
  length : data.contentLength.toNat < 9223372036854775808
  within : data.bytesRead.toNat ≤ data.contentLength.toNat

/-- What has not been read of the body. -/
def unread (data : XMLFileParseData) : List UInt8 :=
  data.f.remaining.take (data.contentLength.toNat - data.bytesRead.toNat)

section Call

variable {data : XMLFileParseData} {len : Int32}

/-- A positive length, as a `size_t`. -/
theorem toNat_len (hlen : 0 < len) :
    (len.toInt64.toUInt64.toNat : Int) = len.toInt ∧ 0 < len.toInt ∧ len.toInt < 2147483648 := by
  have hpos : 0 < len.toInt := Int32.lt_iff_toInt_lt.mp hlen
  have hlong : 0 ≤ len.toInt64 := by
    rw [Int64.le_iff_toInt_le, Int32.toInt_toInt64]
    exact hpos.le
  have hnat : len.toInt64.toUInt64.toNat = len.toInt64.toNatClampNeg :=
    Int64.toNat_toUInt64_of_le hlong
  refine ⟨?_, hpos, len.toInt_lt⟩
  rw [hnat, Int64.toNatClampNeg, Int32.toInt_toInt64]
  omega

/-- Length and number of bytes are added without a wrap. -/
theorem toNat_sum (h : Reads data) (hlen : 0 < len) :
    (len.toInt64.toUInt64 + data.bytesRead).toNat =
      len.toInt64.toUInt64.toNat + data.bytesRead.toNat := by
  obtain ⟨hnat, hpos, hmost⟩ := toNat_len hlen
  have hlength := h.length
  have hwithin := h.within
  rw [UInt64.toNat_add]
  omega

/-- A call asks for the buffer, or for what is unread of the body. -/
theorem toNat_bytesToRead (h : Reads data) (hlen : 0 < len) :
    (bytesToRead data len).toNat =
      min len.toInt.toNat (data.contentLength.toNat - data.bytesRead.toNat) := by
  have hsum := toNat_sum h hlen
  obtain ⟨hnat, hpos, hmost⟩ := toNat_len hlen
  have hwithin := h.within
  unfold bytesToRead
  dsimp only
  split
  · rename_i hover
    rw [UInt64.lt_iff_toNat_lt, hsum] at hover
    rw [UInt64.toNat_sub_of_le _ _ (UInt64.le_iff_toNat_le.mpr hwithin)]
    omega
  · rename_i hunder
    rw [UInt64.lt_iff_toNat_lt, hsum] at hunder
    omega

/-- What is put into the buffer fits it, and is counted. -/
theorem fileReadXml_spec (h : Reads data) (hlen : 0 < len) :
    (fileReadXml data len).2.1.length ≤ len.toInt.toNat ∧
      (fileReadXml data len).2.1.length ≤
        data.contentLength.toNat - data.bytesRead.toNat ∧
      (fileReadXml data len).1.toInt = (fileReadXml data len).2.1.length ∧
      (fileReadXml data len).2.2.bytesRead.toNat =
        data.bytesRead.toNat + (fileReadXml data len).2.1.length := by
  have hasked := toNat_bytesToRead h hlen
  obtain ⟨-, hpos, hmost⟩ := toNat_len hlen
  have hbuffer : (fileReadXml data len).2.1.length ≤ (bytesToRead data len).toNat :=
    data.f.length_fread_le _
  have hlength := h.length
  have hwithin := h.within
  have hsize : UInt64.size = 18446744073709551616 := rfl
  refine ⟨by omega, by omega, ?_, ?_⟩
  · have hresult : (fileReadXml data len).1 =
        Int32.ofNat (fileReadXml data len).2.1.length := rfl
    rw [hresult]
    exact Int32.toInt_ofNat_of_lt (by omega)
  · have hread : (UInt64.ofNat (fileReadXml data len).2.1.length).toNat =
        (fileReadXml data len).2.1.length := UInt64.toNat_ofNat_of_lt' (by omega)
    have hadded : (fileReadXml data len).2.2.bytesRead =
        data.bytesRead + UInt64.ofNat (fileReadXml data len).2.1.length := rfl
    rw [hadded, UInt64.toNat_add, hread]
    omega

end Call

/-- **The callback serves the body**: each call takes the next bytes off it, and
puts nothing into the buffer only at its end. -/
theorem fileReadXml_serves :
    Serves (fun data len => (fileReadXml data len).2) Reads (0 < ·) unread where
  keeps := by
    intro data len h hlen
    obtain ⟨-, hmost, -, hread⟩ := fileReadXml_spec h hlen
    have hwithin := h.within
    have hlength : (fileReadXml data len).2.2.contentLength = data.contentLength := rfl
    refine ⟨h.delivers.fread _, h.length, ?_⟩
    rw [hread, hlength]
    omega
  splits := by
    intro data len h hlen
    obtain ⟨-, hmost, -, hread⟩ := fileReadXml_spec h hlen
    have hparts : (fileReadXml data len).2.1 ++ (fileReadXml data len).2.2.f.remaining =
        data.f.remaining := data.f.fread_remaining _
    have hlength : (fileReadXml data len).2.2.contentLength = data.contentLength := rfl
    have hleft : data.contentLength.toNat - data.bytesRead.toNat =
        (fileReadXml data len).2.1.length +
          (data.contentLength.toNat - (data.bytesRead.toNat +
            (fileReadXml data len).2.1.length)) := by omega
    rw [unread, unread, hread, hlength, ← hparts, hleft, List.take_length_add_append]
  stops := by
    intro data len h hlen hnil
    have hasked := toNat_bytesToRead h hlen
    obtain ⟨-, hpos, -⟩ := toNat_len hlen
    have hfread : (data.f.fread (bytesToRead data len).toNat).1 = [] := hnil
    rcases h.delivers.fread_eq_nil hfread with hzero | hend
    · have hnone : data.contentLength.toNat - data.bytesRead.toNat = 0 := by omega
      rw [unread, hnone, List.take_zero]
    · rw [unread, hend, List.take_nil]

end AtmosFilter

/-! ## A body in a file -/

/-- A body in the file of a response, with other bytes before and behind it. -/
structure ErrorFile where
  file : FileStream
  before : List UInt8
  body : List UInt8
  after : List UInt8
  contentLength : Int64
  bytes : file.bytes = before ++ body ++ after
  length : contentLength.toInt = body.length
  seeks : file.seeks = true
  delivers : file.Delivers

namespace ErrorFile

variable (stored : ErrorFile)

/-- The data of the callback, after `fseeko` to the start of the body. -/
def data : XMLFileParseData where
  f := (stored.file.fseeko stored.before.length).getD stored.file
  contentLength := stored.contentLength.toUInt64
  bytesRead := 0

/-- The data when the callback is called once more. -/
def dataAt (lens : Nat → Int32) (k : Nat) : XMLFileParseData :=
  stateAt (fun data len => (AtmosFilter.fileReadXml data len).2) stored.data lens k

/-- What the callback has put into the buffers before. -/
def delivered (lens : Nat → Int32) (k : Nat) : List UInt8 :=
  given (fun data len => (AtmosFilter.fileReadXml data len).2) stored.data lens k

/-- Its result. -/
def result (lens : Nat → Int32) (k : Nat) : Int32 :=
  (AtmosFilter.fileReadXml (stored.dataAt lens k) (lens k)).1

/-- `content_length` as a `size_t`. -/
theorem toNat_contentLength :
    stored.contentLength.toUInt64.toNat = stored.body.length ∧
      stored.body.length < 9223372036854775808 := by
  have hlength := stored.length
  have hmost := stored.contentLength.toInt_lt
  have hpos : 0 ≤ stored.contentLength := by
    rw [Int64.le_iff_toInt_le, hlength]
    exact Int.natCast_nonneg _
  have hnat : stored.contentLength.toUInt64.toNat = stored.contentLength.toNatClampNeg :=
    Int64.toNat_toUInt64_of_le hpos
  rw [hnat, Int64.toNatClampNeg]
  omega

theorem data_f : stored.data.f = { stored.file with position := stored.before.length } := by
  rw [data, FileStream.fseeko, if_pos stored.seeks]
  rfl

theorem reads_data : AtmosFilter.Reads stored.data := by
  obtain ⟨hnat, hmost⟩ := stored.toNat_contentLength
  refine ⟨?_, ?_, Nat.zero_le _⟩
  · rw [data_f]
    exact stored.delivers
  · exact hnat.trans_lt hmost

/-- At first the whole body is unread. -/
theorem unread_data : AtmosFilter.unread stored.data = stored.body := by
  have hnat : stored.data.contentLength.toNat = stored.body.length :=
    stored.toNat_contentLength.1
  have hzero : stored.data.bytesRead.toNat = 0 := rfl
  have hahead : stored.data.f.remaining = stored.body ++ stored.after := by
    rw [data_f, FileStream.remaining, stored.bytes, List.append_assoc, List.drop_left]
  rw [AtmosFilter.unread, hnat, hzero, hahead, Nat.sub_zero, List.take_left]

/-! ## All calls -/

/-- One call stays within the body and within its buffer: no sum wraps, nothing is
taken off less, and the result is the number of bytes in the buffer. -/
structure CallWithin (data : XMLFileParseData) (len : Int32) : Prop where
  bytesRead : data.bytesRead.toNat ≤ data.contentLength.toNat
  sum : (len.toInt64.toUInt64 + data.bytesRead).toNat =
    len.toInt64.toUInt64.toNat + data.bytesRead.toNat
  result : (AtmosFilter.fileReadXml data len).1.toInt =
    (AtmosFilter.fileReadXml data len).2.1.length
  buffer : (AtmosFilter.fileReadXml data len).1.toInt ≤ len.toInt

theorem callWithin {data : XMLFileParseData} {len : Int32} (h : AtmosFilter.Reads data)
    (hlen : 0 < len) : CallWithin data len := by
  obtain ⟨hbuffer, -, hresult, -⟩ := AtmosFilter.fileReadXml_spec h hlen
  have hpos : 0 < len.toInt := Int32.lt_iff_toInt_lt.mp hlen
  exact
    { bytesRead := h.within
      sum := AtmosFilter.toNat_sum h hlen
      result := hresult
      buffer := by omega }

/-- The callback hands out the body and then returns 0. -/
structure HandsOut (lens : Nat → Int32) : Prop where
  within : ∀ k, CallWithin (stored.dataAt lens k) (lens k)
  ends : ∃ k, stored.result lens k = 0 ∧ (∀ j, j < k → stored.result lens j ≠ 0) ∧
    stored.delivered lens k = stored.body

/-- **Whatever buffers are asked for**, the callback hands out the body. -/
theorem handsOut {lens : Nat → Int32} (hlens : ∀ k, 0 < lens k) : stored.HandsOut lens := by
  have hreads : ∀ k, AtmosFilter.Reads (stored.dataAt lens k) :=
    AtmosFilter.fileReadXml_serves.ok_stateAt stored.reads_data hlens
  have hzero : ∀ k, stored.result lens k = 0 ↔
      (AtmosFilter.fileReadXml (stored.dataAt lens k) (lens k)).2.1 = [] := by
    intro k
    have hresult := (callWithin (hreads k) (hlens k)).result
    rw [← List.length_eq_zero_iff, result, ← Int32.toInt_inj, hresult]
    exact Int.natCast_eq_zero
  obtain ⟨k, hnil, hearlier, hgiven⟩ :=
    AtmosFilter.fileReadXml_serves.exists_stop stored.reads_data hlens
  refine ⟨fun k => callWithin (hreads k) (hlens k), k, (hzero k).mpr hnil, ?_, ?_⟩
  · intro j hj heq
    exact hearlier j hj ((hzero j).mp heq)
  · exact hgiven.trans stored.unread_data

/-! ## Two ways to a document -/

/-- An answer with the body in the file. -/
def inFile (reply : Reply) : Reply :=
  { reply with
    contentLength := stored.contentLength
    fileBody := some (stored.body ++ stored.after) }

/-- The same answer with the body in memory. -/
def inMemory (reply : Reply) : Reply :=
  { reply with
    contentLength := stored.contentLength
    body := some stored.body
    fileBody := none }

/-- The document in the file is the one in memory. -/
def ReadAlike (env : ReplyEnv) : Prop :=
  ∀ reply, AtmosFilter.After.errorDocument env (stored.inFile reply) =
    AtmosFilter.After.errorDocument env (stored.inMemory reply)

variable {stored}

/-- In the file it is the document of the body. -/
theorem errorDocument_inFile (env : ReplyEnv) (reply : Reply) :
    AtmosFilter.After.errorDocument env (stored.inFile reply) = env.xml.readIo stored.body := by
  have htake : (stored.body ++ stored.after).take stored.contentLength.toUInt64.toNat =
      stored.body := by rw [stored.toNat_contentLength.1, List.take_left]
  exact congrArg env.xml.readIo htake

/-- **A length that is an `int`** is read in memory as in the file. -/
theorem readAlike_of_int {env : ReplyEnv} (hxml : env.xml.ReadsAlike)
    (hint : stored.contentLength.toInt < 2147483648) : stored.ReadAlike env := by
  intro reply
  have hlength := stored.length
  have hsize : stored.contentLength.toInt32.toInt = stored.body.length := by
    rw [← hlength, Int64.toInt_toInt32]
    apply Int.bmod_eq_of_le
    · omega
    · omega
  have hmemory : AtmosFilter.After.errorDocument env (stored.inMemory reply) =
      env.xml.readMemory (some stored.body) stored.contentLength.toInt32 := rfl
  have hpos : 0 ≤ stored.contentLength.toInt32 := by
    rw [Int32.le_iff_toInt_le, hsize]
    exact Int.natCast_nonneg _
  rw [errorDocument_inFile, hmemory, hxml.readMemory_bytes _ _ hpos, hsize, Int.toNat_natCast,
    List.take_length]

/-- With such a document the whole filter does the same. -/
theorem ReadAlike.parseAtmosError {env : ReplyEnv} (h : stored.ReadAlike env) (reply : Reply)
    (method : HttpMethod) (response : Response) :
    AtmosFilter.After.parseAtmosError env (stored.inFile reply) method response =
      AtmosFilter.After.parseAtmosError env (stored.inMemory reply) method response := by
  unfold AtmosFilter.After.parseAtmosError
  rw [h reply]
  rfl

/-- A body of some length, in a file of its own. -/
def ofBody (body : List UInt8) (contentLength : Int64) (h : contentLength.toInt = body.length) :
    ErrorFile where
  file := { bytes := body, position := 0, tells := true, seeks := true, limits := [] }
  before := []
  body := body
  after := []
  contentLength := contentLength
  bytes := by rw [List.append_nil, List.nil_append]
  length := h
  seeks := rfl
  delivers _ hlimit := absurd hlimit List.not_mem_nil

end ErrorFile

/-- An `Error` element that holds as many spaces as make the document as long. -/
def paddedError (length : Nat) : List UInt8 :=
  bytes "<Error>" ++ (List.replicate (length - 15) space ++ bytes "</Error>")

theorem length_paddedError {length : Nat} (h : 15 ≤ length) :
    (paddedError length).length = length := by
  have hopen : (bytes "<Error>").length = 7 := by decide
  have hclose : (bytes "</Error>").length = 8 := by decide
  rw [paddedError, List.length_append, List.length_append, List.length_replicate, hopen, hclose]
  omega

/-- The reader that knows this document. -/
def paddedReader (length : Nat) : LibxmlReader :=
  .ofDocuments
    [(paddedError length, bytes "Error", [.text (List.replicate (length - 15) space)])]

theorem paddedReader_readsAlike (length : Nat) : (paddedReader length).ReadsAlike :=
  LibxmlReader.ofDocuments_readsAlike _

theorem readIo_paddedReader {length : Nat} {body : List UInt8} :
    ((paddedReader length).readIo body).isSome ↔ body = paddedError length := by
  have hlookup : ((paddedReader length).readIo body).isSome =
      (List.lookup body [(paddedError length, bytes "Error",
        [Node.text (List.replicate (length - 15) space)])]).isSome := rfl
  rw [hlookup, List.lookup_isSome_iff]
  simp only [List.mem_singleton, exists_eq_left, beq_iff_eq]

/-- A length above is not: in memory there is no document, or none of the whole body. -/
theorem ErrorFile.padded_not_readAlike {contentLength : Int64}
    (hlong : 2147483648 ≤ contentLength.toInt) {env : ReplyEnv}
    (hxml : env.xml = paddedReader contentLength.toInt.toNat)
    (hlength : contentLength.toInt = (paddedError contentLength.toInt.toNat).length) :
    ¬ (ofBody _ contentLength hlength).ReadAlike env := by
  obtain ⟨toEnv, time, xml⟩ := env
  obtain rfl : xml = paddedReader contentLength.toInt.toNat := hxml
  intro halike
  have hread : (paddedReader contentLength.toInt.toNat).readIo
      (paddedError contentLength.toInt.toNat) =
        (paddedReader contentLength.toInt.toNat).readMemory
          (some (paddedError contentLength.toInt.toNat)) contentLength.toInt32 :=
    (errorDocument_inFile _ lostReply).symm.trans (halike lostReply)
  have hsome := readIo_paddedReader.mpr (rfl : paddedError contentLength.toInt.toNat = _)
  rw [hread] at hsome
  have hsize := contentLength.toInt32.toInt_lt
  by_cases hnegative : contentLength.toInt32 < 0
  · rw [(paddedReader_readsAlike _).readMemory_negative _ _ hnegative] at hsome
    cases hsome
  · rw [(paddedReader_readsAlike _).readMemory_bytes _ _ (Int32.not_lt.mp hnegative)] at hsome
    have htaken := congrArg List.length (readIo_paddedReader.mp hsome)
    rw [List.length_take] at htaken
    omega

/-- **Errors in files and in memory.**  The callback hands out the body of an error
in a file, whatever the file has around it, whatever buffers `libxml2` brings and
however the reads turn out.  For a length the document is always the one in memory
exactly when it is an `int`; then the filter does the same with both. -/
theorem error_bodies_alike_iff (contentLength : Int64) :
    (∀ stored : ErrorFile, stored.contentLength = contentLength →
      (∀ lens : Nat → Int32, (∀ k, 0 < lens k) → stored.HandsOut lens) ∧
      (∀ env reply, AtmosFilter.After.errorDocument env (stored.inFile reply) =
        env.xml.readIo stored.body) ∧
      ∀ env, stored.ReadAlike env → ∀ reply method response,
        AtmosFilter.After.parseAtmosError env (stored.inFile reply) method response =
          AtmosFilter.After.parseAtmosError env (stored.inMemory reply) method response) ∧
      ((∀ (stored : ErrorFile) (env : ReplyEnv), stored.contentLength = contentLength →
        env.xml.ReadsAlike → stored.ReadAlike env) ↔ contentLength.toInt < 2147483648) := by
  constructor
  · intro stored _
    exact ⟨fun lens => stored.handsOut, ErrorFile.errorDocument_inFile,
      fun env h => h.parseAtmosError⟩
  · constructor
    · intro h
      by_contra hlong
      have hlength : contentLength.toInt =
          (paddedError contentLength.toInt.toNat).length := by
        rw [length_paddedError] <;> omega
      exact ErrorFile.padded_not_readAlike (not_lt.mp hlong) rfl hlength
        (h (.ofBody _ contentLength hlength)
          { blindEnv with xml := paddedReader contentLength.toInt.toNat } rfl
          (paddedReader_readsAlike _))
    · intro hint stored env hlength hxml
      exact ErrorFile.readAlike_of_int hxml (hlength ▸ hint)

/-- An error in a file that was used before, in short reads. -/
def reusedFile : ErrorFile where
  file :=
    { bytes := bytes "head<Error/>tail", position := 16, tells := true, seeks := true
      limits := [3, 1] }
  before := bytes "head"
  body := bytes "<Error/>"
  after := bytes "tail"
  contentLength := 8
  bytes := by decide
  length := by decide
  seeks := rfl
  delivers := by
    unfold FileStream.Delivers
    decide

/-- A client that knows the document in it. -/
def reusedEnv : ReplyEnv :=
  { blindEnv with xml := .ofDocuments [(bytes "<Error/>", bytes "Error", [])] }

/-- It is handed out to buffers of four bytes, and read like one in memory. -/
theorem error_bodies_alike_iff_reused :
    reusedFile.HandsOut (fun _ => 4) ∧ reusedFile.ReadAlike reusedEnv := by
  obtain ⟨hfile, halike⟩ := error_bodies_alike_iff 8
  have hint : (8 : Int64).toInt < 2147483648 := by decide
  exact ⟨(hfile reusedFile rfl).1 _ fun _ => by decide,
    halike.mpr hint reusedFile _ rfl (LibxmlReader.ofDocuments_readsAlike _)⟩

/-- **An `Error` of 2 GiB** has a document in the file and none in memory. -/
theorem long_body_unread_in_memory :
    ∃ stored : ErrorFile, stored.body = paddedError 2147483648 ∧
      stored.body.length = 2147483648 ∧
      ∃ env : ReplyEnv, env.xml = paddedReader 2147483648 ∧ env.xml.ReadsAlike ∧
        ¬ stored.ReadAlike env ∧
        (AtmosFilter.After.errorDocument env (stored.inFile lostReply)).isSome ∧
        AtmosFilter.After.errorDocument env (stored.inMemory lostReply) = none := by
  have hlong : 2147483648 ≤ (2147483648 : Int64).toInt := by decide
  have hnat : (2147483648 : Int64).toInt.toNat = 2147483648 := by decide
  have hnegative : (2147483648 : Int64).toInt32 < 0 := by decide
  have hbody : (paddedError 2147483648).length = 2147483648 :=
    length_paddedError (by decide)
  have hlength : (2147483648 : Int64).toInt =
      (paddedError (2147483648 : Int64).toInt.toNat).length := by
    rw [hnat, hbody]
    decide
  refine ⟨.ofBody _ 2147483648 hlength, congrArg paddedError hnat, ?_,
    { blindEnv with xml := paddedReader (2147483648 : Int64).toInt.toNat },
    congrArg paddedReader hnat, paddedReader_readsAlike _,
    ErrorFile.padded_not_readAlike hlong rfl hlength, ?_, ?_⟩
  · exact (congrArg (fun n => (paddedError n).length) hnat).trans hbody
  · rw [ErrorFile.errorDocument_inFile]
    exact readIo_paddedReader.mpr rfl
  · exact (paddedReader_readsAlike _).readMemory_negative _ _ hnegative

end Atmos
