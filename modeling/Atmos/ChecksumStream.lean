import Atmos.Digests

/-!
# Checksums of a stream of bytes

A checksum is fed in pieces, from memory and from files, and is asked for its
value in between.  `AtmosChecksum_get_value` finalizes a copy of the hash
context on its stack; what a call of `…_Final` leaves in the context it is
given is not known here.

* `update_append` — two pieces are as good as one;
* `updateFile_eq` — a file is as good as what its reads deliver;
* `run_calls` — any calls in any order are one update with all that was fed;
* `checksum_follows_bytes` — so value, offset and state depend on the bytes
  alone.
-/

namespace Atmos

open ByteText FixedMemory

/-! ## OpenSSL -/

/-- What the documentation of OpenSSL says about feeding a context in pieces. -/
structure Openssl.Streams (openssl : Openssl) : Prop where
  update_nil : ∀ alg context, openssl.hashUpdate alg context [] = context
  update_append : ∀ alg context data data',
    openssl.hashUpdate alg (openssl.hashUpdate alg context data) data' =
      openssl.hashUpdate alg context (data ++ data')

/-- Finalizing a context gives a digest. -/
def Openssl.Finalizes (openssl : Openssl) : Prop :=
  ∀ alg context, (openssl.hashFinal alg context).isSome

/-- The digest of some bytes, fed at once. -/
def Openssl.digest (openssl : Openssl) (alg : AtmosChecksumAlg) (data : List UInt8) :
    Option (List UInt8) := do
  let context ← openssl.hashInit alg
  openssl.hashFinal alg (openssl.hashUpdate alg context data)

/-- A digest as OpenSSL computed it. -/
structure RecordedDigest where
  alg : AtmosChecksumAlg
  data : List UInt8
  digest : List UInt8
  deriving DecidableEq, Repr

/-- OpenSSL on the inputs of some recorded digests: the context holds the bytes
so far. -/
def Openssl.replayDigests (recordings : List RecordedDigest) : Openssl :=
  { Openssl.replay [] with
    hashInit := fun _ => some []
    hashUpdate := fun _ context data => context ++ data
    hashFinal := fun alg context =>
      some ((((recordings.find? fun r => r.alg = alg ∧ r.data = context).map (·.digest)).getD
        []).takeD alg.digestLength 0)
    hashFinal_length := fun _ _ _ h => by
      cases h
      exact List.takeD_length .. }

theorem Openssl.replayDigests_streams (recordings : List RecordedDigest) :
    (Openssl.replayDigests recordings).Streams where
  update_nil _ _ := List.append_nil _
  update_append _ _ _ _ := List.append_assoc ..

theorem Openssl.replayDigests_finalizes (recordings : List RecordedDigest) :
    (Openssl.replayDigests recordings).Finalizes := fun _ _ => rfl

/-! ## Hexadecimal text -/

/-- A hexadecimal digit in lower case. -/
def hexDigit (n : Nat) : UInt8 := (bytes "0123456789abcdef").getD n 0

/-- Two hexadecimal digits for each byte. -/
def hexText (data : List UInt8) : CStr :=
  data.flatMap fun b => [hexDigit (b.toNat / 16), hexDigit (b.toNat % 16)]

namespace AtmosChecksum

theorem nibbleToHexChar_eq {nibble : UInt8} (h : nibble.toNat < 16) :
    nibbleToHexChar nibble = hexDigit nibble.toNat := by
  have hall : ∀ n : Fin 16, nibbleToHexChar (UInt8.ofNat n) = hexDigit n := by decide
  have hnibble := hall ⟨nibble.toNat, h⟩
  rwa [UInt8.ofNat_toNat] at hnibble

theorem toHexString_eq (digest : List UInt8) : toHexString digest = hexText digest := by
  unfold toHexString hexText
  congr 1
  funext b
  have hbyte := b.toNat_lt
  have hhigh : (b >>> 4).toNat = b.toNat / 16 := by
    rw [UInt8.toNat_shiftRight, Nat.shiftRight_eq_div_pow]
    rfl
  have hlow : (b &&& 0xf).toNat = b.toNat % 16 := by
    rw [UInt8.toNat_and]
    exact Nat.and_two_pow_sub_one_eq_mod b.toNat 4
  rw [nibbleToHexChar_eq (by omega), nibbleToHexChar_eq (by omega), hhigh, hlow]

/-! ## Feeding -/

section Feeding

variable {openssl : Openssl}

@[simp] theorem update_mode (self : AtmosChecksum) (data : List UInt8) :
    (self.update openssl data).mode = self.mode := by
  unfold update
  split <;> rfl

@[simp] theorem update_alg (self : AtmosChecksum) (data : List UInt8) :
    (self.update openssl data).alg = self.alg := by
  unfold update
  split <;> rfl

/-- Feeding keeps a context a context. -/
theorem update_internalState (self : AtmosChecksum) (data : List UInt8) :
    (self.update openssl data).internalState.isSome = self.internalState.isSome := by
  unfold update
  split
  · rfl
  · rename_i hcontext
    rw [hcontext]
    rfl

theorem update_nil (h : openssl.Streams) (self : AtmosChecksum) :
    self.update openssl [] = self := by
  obtain ⟨mode, alg, offset, internalState⟩ := self
  cases internalState with
  | none => rfl
  | some context =>
      cases alg <;> simp [update, h.update_nil]

/-- An update is seen in the checksum, unless there is no context or nothing to
feed: the offset counts the bytes. -/
theorem update_eq_self_iff (h : openssl.Streams) {self : AtmosChecksum} {data : List UInt8}
    (hlength : data.length < 18446744073709551616) :
    self.update openssl data = self ↔ self.internalState = none ∨ data = [] := by
  constructor
  · intro hsame
    cases hcontext : self.internalState with
    | none => exact Or.inl rfl
    | some context =>
        right
        have hoffset := congrArg AtmosChecksum.offset hsame
        unfold update at hoffset
        rw [hcontext] at hoffset
        dsimp only at hoffset
        have hzero : Int64.ofNat data.length = 0 := by
          apply (Int64.add_right_inj self.offset).mp
          rw [hoffset, Int64.add_zero]
        have hcount : (Int64.ofNat data.length).toUInt64.toNat = 0 := by rw [hzero]; rfl
        rw [Int64.toUInt64_ofNat', UInt64.toNat_ofNat_of_lt' hlength] at hcount
        exact List.length_eq_zero_iff.mp hcount
  · intro hquiet
    rcases hquiet with hnone | rfl
    · unfold update
      rw [hnone]
    · exact update_nil h self

/-- **Two pieces are as good as one.** -/
theorem update_append (h : openssl.Streams) (self : AtmosChecksum) (data data' : List UInt8) :
    (self.update openssl data).update openssl data' = self.update openssl (data ++ data') := by
  obtain ⟨mode, alg, offset, internalState⟩ := self
  cases internalState with
  | none => rfl
  | some context =>
      have hoffset : offset + Int64.ofNat data.length + Int64.ofNat data'.length =
          offset + Int64.ofNat (data ++ data').length := by
        rw [List.length_append, Int64.ofNat_add, Int64.add_assoc]
      cases alg <;> simp only [update, h.update_append, hoffset]

theorem foldl_update (h : openssl.Streams) (self : AtmosChecksum) (pieces : List (List UInt8)) :
    pieces.foldl (update openssl) self = self.update openssl pieces.flatten := by
  induction pieces generalizing self with
  | nil => exact (update_nil h self).symm
  | cons data pieces ih =>
      rw [List.foldl_cons, ih, update_append h, List.flatten_cons]

/-- What the reads in `AtmosChecksum_update_file` deliver, call by call. -/
def filePieces (data : FileStream) (count : Int) : List (List UInt8) :=
  (data.readPieces (readSize count) count 0).1

/-- A read asks for what is missing, up to a buffer; the comparison made in
`size_t` decides that for every count of an `int64_t`. -/
theorem readSize_eq {count read : Int} (hcount : count < 9223372036854775808)
    (hread : 0 ≤ read) (hmost : read ≤ count) :
    readSize count read = min (count - read).toNat fileBufferSize := by
  unfold readSize sizeCount fileBufferSize
  have hsigned : count % 18446744073709551616 = count := by omega
  split
  · omega
  · omega

/-- A read never asks for more than the buffer holds. -/
theorem readSize_le {count read : Int} (hcount : count < 9223372036854775808)
    (hread : 0 ≤ read) : readSize count read ≤ fileBufferSize := by
  unfold readSize sizeCount fileBufferSize
  split <;> omega

/-- **The reads deliver the bytes of the body**, in whatever pieces. -/
theorem flatten_filePieces {data : FileStream} (h : data.Delivers) {count : Int}
    (hpos : 0 ≤ count) (hcount : count < 9223372036854775808) :
    (filePieces data count).flatten = data.remaining.take count.toNat := by
  have hbuffer : fileBufferSize = 65536 := rfl
  have hsize : ∀ read, 0 ≤ read → read ≤ count → readSize count read ≤ (count - read).toNat ∧
      (read < count → 0 < readSize count read) := by
    intro read hread hmost
    rw [readSize_eq hcount hread hmost]
    omega
  have hpieces := FileStream.flatten_readPieces hsize h (le_refl 0) hpos
  rwa [Int.sub_zero] at hpieces

/-- The loop feeds what its reads deliver. -/
theorem updateFileLoop_eq (openssl : Openssl) (count : Int) (self : AtmosChecksum)
    (data : FileStream) (read : Int) :
    updateFileLoop openssl count self data read =
      ((data.readPieces (readSize count) count read).1.foldl (update openssl) self,
        (data.readPieces (readSize count) count read).2) := by
  fun_induction updateFileLoop openssl count self data read with
  | case1 self data read hnil =>
      rw [FileStream.readPieces, dif_pos hnil]
      rfl
  | case2 self data read hsome _ fed read' hmore ih =>
      rw [FileStream.readPieces, dif_neg hsome]
      dsimp only
      rw [if_pos hmore]
      exact ih
  | case3 self data read hsome _ fed read' hdone =>
      rw [FileStream.readPieces, dif_neg hsome]
      dsimp only
      rw [if_neg hdone]
      rfl

/-- **A file is as good as its bytes.** -/
theorem updateFile_eq (h : openssl.Streams) (self : AtmosChecksum) (data : FileStream)
    (count : Int) :
    self.updateFile openssl data count =
      (self.update openssl (filePieces data count).flatten,
        (data.readPieces (readSize count) count 0).2) := by
  rw [updateFile, updateFileLoop_eq, foldl_update h]
  rfl

end Feeding

/-! ## Asking -/

section Asking

variable (openssl : Openssl) (spent : AtmosChecksumAlg → List UInt8 → List UInt8)

/-- The memory `AtmosChecksum_get_value` works on: the object, and a context on
the stack. -/
structure ValueFrame where
  checksum : AtmosChecksum
  context : List UInt8

/-- `memcpy` of the context to the stack; there is no check that there is a
context. -/
def ValueFrame.copy (frame : ValueFrame) : Option ValueFrame :=
  frame.checksum.internalState.map fun context => { frame with context }

/-- `MD5_Final`, `SHA_Final`, `SHA1_Final` of the context on the stack, where
`spent` is what they make of a context. -/
def ValueFrame.final (frame : ValueFrame) : Option (List UInt8) × ValueFrame :=
  (openssl.hashFinal frame.checksum.alg frame.context,
    { frame with context := spent frame.checksum.alg frame.context })

/-- `AtmosChecksum_get_value`, with what it does to the object. -/
def getValueCall (self : AtmosChecksum) : Option (Option CStr × AtmosChecksum) :=
  match self.alg with
  | .md5 | .sha0 | .sha1 => do
      let frame ← ValueFrame.copy ⟨self, []⟩
      let (digest, frame) := frame.final openssl spent
      some (digest.map toHexString, frame.checksum)
  | .unknown _ => some (none, self)

/-- `AtmosChecksum_get_state`, with what it does to the object. -/
def getStateCall (self : AtmosChecksum) : Option (Option CStr × AtmosChecksum) := do
  let (value, self) ← self.getValueCall openssl spent
  value.elim (some (none, self)) fun value => do
    let offsetbuf := decimal self.offset.toInt
    let outsz := value.length + offsetbuf.length + 7
    let algorithm ← self.alg.algorithm
    some (some (snprintf outsz
      (algorithm ++ bytes "/" ++ offsetbuf ++ bytes "/" ++ value)), self)

/-- The object is left alone: only the copy is finalized. -/
theorem getValueCall_eq (self : AtmosChecksum) :
    self.getValueCall openssl spent = (self.getValue openssl).map fun value => (value, self) := by
  obtain ⟨mode, alg, offset, internalState⟩ := self
  cases alg <;> cases internalState <;> rfl

theorem getStateCall_eq (self : AtmosChecksum) :
    self.getStateCall openssl spent = (self.getState openssl).map fun state => (state, self) := by
  unfold getStateCall getState
  rw [getValueCall_eq]
  cases self.getValue openssl with
  | none => rfl
  | some value =>
      cases value with
      | none => rfl
      | some value =>
          obtain ⟨mode, alg, offset, internalState⟩ := self
          cases alg <;> rfl

theorem getValue_isSome {self : AtmosChecksum} (h : self.internalState.isSome) :
    (self.getValue openssl).isSome := by
  obtain ⟨context, hcontext⟩ := Option.isSome_iff_exists.mp h
  unfold getValue
  split
  · rfl
  · rw [hcontext]
    rfl

/-- The state names the algorithm, the offset and the value. -/
theorem getState_of_getValue {self : AtmosChecksum} {algorithm value : CStr}
    (hvalue : self.getValue openssl = some (some value))
    (halgorithm : self.alg.algorithm = some algorithm) :
    self.getState openssl = some (some (algorithm ++ bytes "/" ++ decimal self.offset.toInt ++
      bytes "/" ++ value)) := by
  have hsome : ∃ state, self.getState openssl = some (some state) := by
    unfold getState
    rw [hvalue, halgorithm]
    exact ⟨_, rfl⟩
  obtain ⟨state, hstate⟩ := hsome
  obtain ⟨name, value', hname, hvalue', rfl, -⟩ := getState_eq_some openssl hstate
  obtain rfl : algorithm = name := Option.some.inj (halgorithm.symm.trans hname)
  obtain rfl : value = value' := by simpa using hvalue.symm.trans hvalue'
  exact hstate

/-- An algorithm with a value has a name. -/
theorem getState_isSome {self : AtmosChecksum} (h : self.internalState.isSome) :
    (self.getState openssl).isSome := by
  obtain ⟨result, hvalue⟩ := Option.isSome_iff_exists.mp (getValue_isSome openssl h)
  cases halgorithm : self.alg.algorithm with
  | some algorithm =>
      cases result with
      | none =>
          unfold getState
          rw [hvalue]
          rfl
      | some value =>
          rw [getState_of_getValue openssl hvalue halgorithm]
          rfl
  | none =>
      obtain ⟨mode, alg, offset, internalState⟩ := self
      cases alg with
      | unknown code => rfl
      | sha0 => cases halgorithm
      | sha1 => cases halgorithm
      | md5 => cases halgorithm

end Asking

end AtmosChecksum

/-! ## Any calls in any order -/

/-- A call on a checksum. -/
inductive ChecksumCall where
  | update (data : List UInt8)
  | updateFile (data : FileStream) (count : Int)
  | getValue
  | getState
  deriving DecidableEq, Repr

namespace ChecksumCall

/-- The bytes a call feeds: of a file, what the reads deliver. -/
def fed : ChecksumCall → List UInt8
  | update data => data
  | updateFile data count => (AtmosChecksum.filePieces data count).flatten
  | getValue => []
  | getState => []

variable (openssl : Openssl) (spent : AtmosChecksumAlg → List UInt8 → List UInt8)

/-- A call, up to what it does to the object. -/
def run (self : AtmosChecksum) : ChecksumCall → Option AtmosChecksum
  | update data => some (self.update openssl data)
  | updateFile data count => some (self.updateFile openssl data count).1
  | getValue => (self.getValueCall openssl spent).map (·.2)
  | getState => (self.getStateCall openssl spent).map (·.2)

variable {openssl}

/-- A call is one update with what it feeds. -/
theorem run_eq (h : openssl.Streams) {self : AtmosChecksum}
    (hcontext : self.internalState.isSome) (call : ChecksumCall) :
    run openssl spent self call = some (self.update openssl call.fed) := by
  cases call with
  | update data => rfl
  | updateFile data count => rw [run, AtmosChecksum.updateFile_eq h, fed]
  | getValue =>
      obtain ⟨value, hvalue⟩ :=
        Option.isSome_iff_exists.mp (AtmosChecksum.getValue_isSome openssl hcontext)
      rw [run, AtmosChecksum.getValueCall_eq, hvalue, fed, AtmosChecksum.update_nil h]
      rfl
  | getState =>
      obtain ⟨state, hstate⟩ :=
        Option.isSome_iff_exists.mp (AtmosChecksum.getState_isSome openssl hcontext)
      rw [run, AtmosChecksum.getStateCall_eq, hstate, fed, AtmosChecksum.update_nil h]
      rfl

/-- **Any calls in any order** are one update with all that was fed. -/
theorem run_calls (h : openssl.Streams) {self : AtmosChecksum}
    (hcontext : self.internalState.isSome) (calls : List ChecksumCall) :
    calls.foldlM (run openssl spent) self =
      some (self.update openssl (calls.flatMap fed)) := by
  induction calls generalizing self with
  | nil =>
      rw [List.flatMap_nil, AtmosChecksum.update_nil h]
      rfl
  | cons call calls ih =>
      have hnext : (self.update openssl call.fed).internalState.isSome := by
        rwa [AtmosChecksum.update_internalState]
      rw [List.foldlM_cons, run_eq spent h hcontext]
      exact (ih hnext).trans (by rw [AtmosChecksum.update_append h, List.flatMap_cons])

end ChecksumCall

namespace AtmosChecksum

variable {openssl : Openssl}

/-- A context that was made belongs to an algorithm with a name. -/
theorem init_internalState {mode : AtmosChecksumMode} {alg : AtmosChecksumAlg}
    {context : List UInt8} (h : (init openssl mode alg).internalState = some context) :
    openssl.hashInit alg = some context ∧ ∃ algorithm, alg.algorithm = some algorithm := by
  cases alg with
  | unknown code => cases h
  | sha0 => exact ⟨h, _, rfl⟩
  | sha1 => exact ⟨h, _, rfl⟩
  | md5 => exact ⟨h, _, rfl⟩

/-- **A new checksum that was fed some bytes.** -/
theorem init_update {mode : AtmosChecksumMode} {alg : AtmosChecksumAlg}
    {context : List UInt8} (h : (init openssl mode alg).internalState = some context)
    (data : List UInt8) :
    (init openssl mode alg).update openssl data =
      { mode, alg
        offset := Int64.ofNat data.length
        internalState := some (openssl.hashUpdate alg context data) } := by
  have hoffset : (0 : Int64) + Int64.ofNat data.length = Int64.ofNat data.length :=
    Int64.zero_add _
  unfold update
  rw [h]
  cases alg with
  | unknown code => cases h
  | sha0 => simp only [init, hoffset]
  | sha1 => simp only [init, hoffset]
  | md5 => simp only [init, hoffset]

/-- The value and the state of a new checksum that was fed some bytes. -/
theorem getState_init_update {mode : AtmosChecksumMode} {alg : AtmosChecksumAlg}
    {context algorithm digest : List UInt8}
    (h : (init openssl mode alg).internalState = some context)
    (halgorithm : alg.algorithm = some algorithm) {data : List UInt8}
    (hdigest : openssl.hashFinal alg (openssl.hashUpdate alg context data) = some digest)
    (hlength : data.length < 9223372036854775808) :
    ((init openssl mode alg).update openssl data).offset.toInt = data.length ∧
      ((init openssl mode alg).update openssl data).getValue openssl =
        some (some (hexText digest)) ∧
      ((init openssl mode alg).update openssl data).getState openssl =
        some (some (algorithm ++ bytes "/" ++ decimal data.length ++ bytes "/" ++
          hexText digest)) := by
  have hvalue : ((init openssl mode alg).update openssl data).getValue openssl =
      some (some (hexText digest)) := by
    rw [init_update h, ← toHexString_eq]
    unfold getValue
    cases alg with
    | unknown code => cases h
    | sha0 => simp only [Option.map_some, hdigest]
    | sha1 => simp only [Option.map_some, hdigest]
    | md5 => simp only [Option.map_some, hdigest]
  have hstate := getState_of_getValue openssl hvalue (by rw [update_alg]; exact halgorithm)
  have hnumber : ((init openssl mode alg).update openssl data).offset.toInt = data.length := by
    rw [init_update h]
    exact Int64.toInt_ofNat_of_lt hlength
  rw [hnumber] at hstate
  exact ⟨hnumber, hvalue, hstate⟩

/-- **A checksum depends on the bytes alone.**  After any calls in any order,
its value, its offset and its state are those of the bytes fed so far, and to
ask for them leaves it as it is. -/
theorem checksum_follows_bytes (hstreams : openssl.Streams) (hfinal : openssl.Finalizes)
    (spent : AtmosChecksumAlg → List UInt8 → List UInt8) {mode : AtmosChecksumMode}
    {alg : AtmosChecksumAlg} (hinit : (init openssl mode alg).internalState.isSome)
    (calls : List ChecksumCall)
    (hlength : (calls.flatMap ChecksumCall.fed).length < 9223372036854775808) :
    ∃ self algorithm digest,
      calls.foldlM (ChecksumCall.run openssl spent) (init openssl mode alg) = some self ∧
      alg.algorithm = some algorithm ∧
      openssl.digest alg (calls.flatMap ChecksumCall.fed) = some digest ∧
      self.offset.toInt = (calls.flatMap ChecksumCall.fed).length ∧
      self.getValueCall openssl spent = some (some (hexText digest), self) ∧
      self.getStateCall openssl spent =
        some (some (algorithm ++ bytes "/" ++
          decimal (calls.flatMap ChecksumCall.fed).length ++ bytes "/" ++ hexText digest),
          self) := by
  obtain ⟨context, hcontext⟩ := Option.isSome_iff_exists.mp hinit
  obtain ⟨hmade, algorithm, halgorithm⟩ := init_internalState hcontext
  obtain ⟨digest, hdigest⟩ := Option.isSome_iff_exists.mp
    (hfinal alg (openssl.hashUpdate alg context (calls.flatMap ChecksumCall.fed)))
  obtain ⟨hoffset, hvalue, hstate⟩ :=
    getState_init_update hcontext halgorithm hdigest hlength
  refine ⟨_, algorithm, digest, ChecksumCall.run_calls spent hstreams hinit calls, halgorithm,
    ?_, hoffset, ?_, ?_⟩
  · rw [Openssl.digest, hmade]
    exact hdigest
  · rw [getValueCall_eq, hvalue]
    rfl
  · rw [getStateCall_eq, hstate]
    rfl

/-- The digests of two texts, as OpenSSL computes them. -/
def helloDigests : List RecordedDigest :=
  [{ alg := .sha1, data := bytes "hello"
     digest := [170, 244, 198, 29, 220, 197, 232, 162, 218, 190, 222, 15, 59, 72, 44, 217, 174,
       169, 67, 77] },
   { alg := .sha1, data := bytes "hello world"
     digest := [42, 174, 108, 53, 201, 79, 207, 180, 21, 219, 233, 95, 64, 139, 156, 233, 30,
       232, 70, 237] }]

/-- The end of a file, in short reads. -/
def worldFile : FileStream where
  bytes := bytes "the world"
  position := 3
  tells := true
  seeks := true
  limits := [1, 2]

/-- Memory, a question, a file, another question and an empty piece. -/
def helloCalls : List ChecksumCall :=
  [.update (bytes "hello"), .getValue, .updateFile worldFile 6, .getState, .update []]

theorem checksum_follows_bytes_hello :
    ∃ self : AtmosChecksum,
      helloCalls.foldlM (ChecksumCall.run (Openssl.replayDigests helloDigests) fun _ _ => [])
        (init (Openssl.replayDigests helloDigests) .wschecksum .sha1) = some self ∧
      self.offset.toInt = 11 ∧
      self.getStateCall (Openssl.replayDigests helloDigests) (fun _ _ => []) =
        some (some (bytes "sha1/11/2aae6c35c94fcfb415dbe95f408b9ce91ee846ed"), self) := by
  have hdelivers : worldFile.Delivers := by
    unfold FileStream.Delivers worldFile
    decide
  have hfed : helloCalls.flatMap ChecksumCall.fed = bytes "hello world" := by
    simp only [helloCalls, List.flatMap_cons, List.flatMap_nil, ChecksumCall.fed,
      flatten_filePieces hdelivers (by decide : (0 : Int) ≤ 6) (by decide)]
    decide
  obtain ⟨self, algorithm, digest, hrun, halgorithm, hdigest, hoffset, -, hstate⟩ :=
    @checksum_follows_bytes _ (Openssl.replayDigests_streams helloDigests)
      (Openssl.replayDigests_finalizes helloDigests) (fun _ _ => []) .wschecksum .sha1 rfl
      helloCalls (by rw [hfed]; decide)
  rw [hfed] at hdigest hoffset hstate
  cases halgorithm
  have hrecorded : (Openssl.replayDigests helloDigests).digest .sha1 (bytes "hello world") =
      some [42, 174, 108, 53, 201, 79, 207, 180, 21, 219, 233, 95, 64, 139, 156, 233, 30,
        232, 70, 237] := by decide
  obtain rfl := Option.some.inj (hrecorded.symm.trans hdigest)
  exact ⟨self, hrun, hoffset, hstate⟩

end AtmosChecksum

end Atmos
