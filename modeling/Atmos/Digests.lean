import Mathlib.Data.List.TakeDrop
import Atmos.Constants
import Atmos.FileStream
import Atmos.FixedMemory

/-!
# Signatures and checksums

What the library computes with OpenSSL: the signature of a string, and the
`AtmosChecksum` that follows the bytes of a body.  OpenSSL itself is not part
of the repository; `Openssl` holds the functions the library calls.

* `length_sign` — a signature has 28 characters, so it fits its header;
* `getState_eq_some` — the shape and the length of the state of a checksum.
-/

namespace Atmos

open ByteText FixedMemory

/-- `enum atmos_checksum_mode` -/
inductive AtmosChecksumMode where
  | wschecksum
  | generateChecksum
  deriving DecidableEq, Repr

/-- `enum atmos_checksum_alg`; memory may hold other numbers. -/
inductive AtmosChecksumAlg where
  | sha0
  | sha1
  | md5
  | unknown (code : Int)
  deriving DecidableEq, Repr

namespace AtmosChecksumAlg

/-- The field `algorithm` that `AtmosChecksum_init` sets; NULL for an unknown
algorithm. -/
def algorithm : AtmosChecksumAlg → Option CStr
  | .sha0 => some (bytes "sha0")
  | .sha1 => some (bytes "sha1")
  | .md5 => some (bytes "md5")
  | .unknown _ => none

/-- `MD5_DIGEST_LENGTH` or `SHA_DIGEST_LENGTH` -/
def digestLength : AtmosChecksumAlg → Nat
  | .md5 => 16
  | _ => 20

theorem length_algorithm_le {alg : AtmosChecksumAlg} {name : CStr}
    (h : alg.algorithm = some name) : name.length ≤ 4 := by
  unfold algorithm at h
  split at h <;> cases h <;> decide

theorem digestLength_le (alg : AtmosChecksumAlg) : alg.digestLength ≤ 20 := by
  unfold digestLength
  split <;> omega

end AtmosChecksumAlg

/-- The functions of OpenSSL the library calls.  A hash context is the memory
of its structure. -/
structure Openssl where
  /-- `HMAC` with `EVP_sha1` -/
  hmacSha1 : List UInt8 → CStr → List UInt8
  hmacSha1_length : ∀ key data, (hmacSha1 key data).length = 20
  /-- `BIO_f_base64` without newlines, reading -/
  base64Decode : CStr → List UInt8
  /-- `BIO_f_base64`, writing: every line of at most 64 characters ends with a
  newline -/
  base64Encode : List UInt8 → CStr
  base64Encode_length : ∀ normal, 0 < normal.length → normal.length ≤ 48 →
    (base64Encode normal).length = (normal.length + 2) / 3 * 4 + 1
  /-- `MD5_Init`, `SHA_Init`, `SHA1_Init`: the new context -/
  hashInit : AtmosChecksumAlg → Option (List UInt8)
  /-- `MD5_Update`, `SHA_Update`, `SHA1_Update`: the context after the call,
  whatever the call returns -/
  hashUpdate : AtmosChecksumAlg → List UInt8 → List UInt8 → List UInt8
  /-- `MD5_Final`, `SHA_Final`, `SHA1_Final`: the digest -/
  hashFinal : AtmosChecksumAlg → List UInt8 → Option (List UInt8)
  hashFinal_length : ∀ alg context digest, hashFinal alg context = some digest →
    digest.length = alg.digestLength

/-- A signature of one text, as OpenSSL made it. -/
structure Recording where
  secret : CStr
  key : List UInt8
  text : CStr
  digest : List UInt8
  signature : CStr
  deriving DecidableEq, Repr

/-- OpenSSL on the inputs of some recordings; no checksum is recorded. -/
def Openssl.replay (recordings : List Recording) : Openssl where
  hmacSha1 key text :=
    (((recordings.find? fun r => r.key = key ∧ r.text = text).map (·.digest)).getD []).takeD
      20 0
  hmacSha1_length _ _ := List.takeD_length ..
  base64Decode secret :=
    ((recordings.find? fun r => r.secret = secret).map (·.key)).getD []
  base64Encode normal :=
    (((recordings.find? fun r => r.digest = normal).map (·.signature)).getD []).takeD
      ((normal.length + 2) / 3 * 4) 0 ++ [newline]
  base64Encode_length _ _ _ := by
    rw [List.length_append, List.takeD_length, List.length_singleton]
  hashInit _ := none
  hashUpdate _ context _ := context
  hashFinal _ _ := none
  hashFinal_length _ _ _ h := by cases h

/-! ## Signatures -/

namespace AtmosUtil

/-- `AtmosUtil_base64encode`: the last byte, a newline, becomes the
terminator. -/
def base64encode (openssl : Openssl) (normal : List UInt8) : CStr :=
  (openssl.base64Encode normal).dropLast

/-- `AtmosUtil_HMACSHA1` -/
def hmacSha1 (openssl : Openssl) (hashString key : CStr) : CStr :=
  let newkey := openssl.base64Decode key
  base64encode openssl (openssl.hmacSha1 newkey hashString)

end AtmosUtil

/-- `AtmosClient`, and the parts of its parent `RestClient` that the library
reads. -/
structure AtmosClient where
  host : CStr
  port : Int
  uid : CStr
  secret : CStr
  enableUtf8Metadata : Bool
  deriving DecidableEq, Repr

namespace AtmosClient

/-- `AtmosClient_sign` -/
def sign (openssl : Openssl) (self : AtmosClient) (hashString : CStr) : CStr :=
  AtmosUtil.hmacSha1 openssl hashString self.secret

/-- A signature is the base64 text of twenty bytes. -/
theorem length_sign (openssl : Openssl) (self : AtmosClient) (hashString : CStr) :
    (self.sign openssl hashString).length = 28 := by
  have hmac := openssl.hmacSha1_length (openssl.base64Decode self.secret) hashString
  have htext := openssl.base64Encode_length
    (openssl.hmacSha1 (openssl.base64Decode self.secret) hashString)
    (by rw [hmac]; decide) (by rw [hmac]; decide)
  rw [hmac] at htext
  rw [sign, AtmosUtil.hmacSha1, AtmosUtil.base64encode, List.length_dropLast, htext]

end AtmosClient

/-! ## Checksums -/

/-- `AtmosChecksum`, as `AtmosChecksum_init` and the functions below leave
it. -/
structure AtmosChecksum where
  mode : AtmosChecksumMode
  alg : AtmosChecksumAlg
  offset : Int64
  internalState : Option (List UInt8)
  deriving DecidableEq, Repr

namespace AtmosChecksum

variable (openssl : Openssl)

/-- `AtmosChecksum_init` -/
def init (mode : AtmosChecksumMode) (alg : AtmosChecksumAlg) : AtmosChecksum where
  mode := mode
  alg := alg
  offset := 0
  internalState :=
    match alg with
    | .unknown _ => none
    | alg => openssl.hashInit alg

/-- `AtmosChecksum_update` -/
def update (self : AtmosChecksum) (data : List UInt8) : AtmosChecksum :=
  match self.internalState with
  | none => self
  | some context =>
      let context :=
        match self.alg with
        | .unknown _ => context
        | alg => openssl.hashUpdate alg context data
      { self with
        internalState := some context
        offset := self.offset + Int64.ofNat data.length }

/-- `sizeof(buffer)` in `AtmosChecksum_update_file` -/
abbrev fileBufferSize : Nat := 65536

/-- `2 ^ 64`, the number of values of a `size_t` -/
abbrev sizeCount : Int := 18446744073709551616

/-- The number of bytes asked for when `read` of `count` have been read.  The
comparison with `sizeof(buffer)` is made in `size_t`. -/
def readSize (count read : Int) : Nat :=
  if count % sizeCount < (read + fileBufferSize) % sizeCount then (count - read).toNat
  else fileBufferSize

/-- The loop of `AtmosChecksum_update_file`. -/
def updateFileLoop (count : Int) (self : AtmosChecksum) (data : FileStream) (read : Int) :
    AtmosChecksum × FileStream :=
  if h : (data.fread (readSize count read)).1 = [] then
    (self, (data.fread (readSize count read)).2)
  else
    have := FileStream.remaining_fread_lt h
    let self := self.update openssl (data.fread (readSize count read)).1
    let read' := read + (data.fread (readSize count read)).1.length
    if read' < count then
      updateFileLoop count self (data.fread (readSize count read)).2 read'
    else (self, (data.fread (readSize count read)).2)
  termination_by data.remaining.length

/-- `AtmosChecksum_update_file` -/
def updateFile (self : AtmosChecksum) (data : FileStream) (count : Int) :
    AtmosChecksum × FileStream :=
  updateFileLoop openssl count self data 0

/-- `AtmosChecksum_nibble_to_hex_char` -/
def nibbleToHexChar (nibble : UInt8) : UInt8 :=
  if nibble < 10 then 48 + nibble else 97 + (nibble - 10)

/-- `AtmosChecksum_to_hex_string` -/
def toHexString (digest : List UInt8) : CStr :=
  digest.flatMap fun (b : UInt8) => [nibbleToHexChar (b >>> 4), nibbleToHexChar (b &&& 0xf)]

/-- `AtmosChecksum_get_value`, where the inner `none` is the result NULL: it
reads the context without a check that there is one. -/
def getValue (self : AtmosChecksum) : Option (Option CStr) :=
  match self.alg with
  | .unknown _ => some none
  | alg => self.internalState.map fun context => (openssl.hashFinal alg context).map toHexString

/-- `AtmosChecksum_get_state` -/
def getState (self : AtmosChecksum) : Option (Option CStr) := do
  match ← self.getValue openssl with
  | none => some none
  | some value =>
      let offsetbuf := decimal self.offset.toInt
      let outsz := value.length + offsetbuf.length + 7
      let algorithm ← self.alg.algorithm
      some (some (snprintf outsz
        (algorithm ++ bytes "/" ++ offsetbuf ++ bytes "/" ++ value)))

theorem length_toHexString (digest : List UInt8) :
    (toHexString digest).length = 2 * digest.length := by
  induction digest with
  | nil => rfl
  | cons b digest ih =>
      rw [toHexString, List.flatMap_cons, List.length_append, ← toHexString, ih,
        List.length_cons]
      simp
      omega

/-- **The state of a checksum**: algorithm, offset and digest.  It fits its
buffer, and a header line. -/
theorem getState_eq_some {self : AtmosChecksum} {state : CStr}
    (h : self.getState openssl = some (some state)) :
    ∃ algorithm value, self.alg.algorithm = some algorithm ∧
      self.getValue openssl = some (some value) ∧
      state = algorithm ++ bytes "/" ++ decimal self.offset.toInt ++ bytes "/" ++ value ∧
      state.length ≤ 66 := by
  unfold getState at h
  obtain ⟨result, hresult, h⟩ := Option.bind_eq_some_iff.mp h
  cases result with
  | none => cases h
  | some value =>
      obtain ⟨algorithm, halgorithm, h⟩ := Option.bind_eq_some_iff.mp h
      cases h
      have hoffset := length_decimal_int64 self.offset
      have hname := AtmosChecksumAlg.length_algorithm_le halgorithm
      have hvalue : value.length ≤ 40 := by
        unfold getValue at hresult
        split at hresult
        · cases hresult
        · obtain ⟨context, -, hdigest⟩ := Option.map_eq_some_iff.mp hresult
          obtain ⟨digest, hfinal, rfl⟩ := Option.map_eq_some_iff.mp hdigest
          have hlength := openssl.hashFinal_length _ _ _ hfinal
          have hmost := self.alg.digestLength_le
          rw [length_toHexString]
          omega
      have hslash : (bytes "/").length = 1 := by decide
      refine ⟨algorithm, value, halgorithm, hresult, ?_, ?_⟩
      · apply snprintf_of_length_lt
        simp only [List.length_append]
        omega
      · have hbuffer := length_snprintf_le
          (value.length + (decimal self.offset.toInt).length + 7)
          (algorithm ++ bytes "/" ++ decimal self.offset.toInt ++ bytes "/" ++ value)
        omega

end AtmosChecksum

end Atmos
