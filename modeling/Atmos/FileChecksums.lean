import Atmos.ChecksumStream

/-!
# Checksums of files

`AtmosChecksum_update_file` reads a file in pieces of at most one buffer until
`count` bytes have come.  How much it asks for next depends on a sum of an
`int64_t` and a `size_t`, compared with an `int64_t` as two values of `size_t`.

* `asksWithin` — at no call this comparison wraps, and no call asks for more than
  the buffer holds or `count` leaves;
* `file_checksum_feeds` — so the loop ends and feeds the bytes that were asked
  for, as far as the file has them.
-/

namespace Atmos

open ByteText

namespace AtmosChecksum

/-- What a call of `fread` asks for when `read` of `count` bytes have come. -/
structure AsksWithin (count read : Int) : Prop where
  not_negative : 0 ≤ read ∧ read ≤ count
  count_unsigned : count % sizeCount = count
  sum_unsigned : (read + fileBufferSize) % sizeCount = read + fileBufferSize
  buffer : readSize count read ≤ fileBufferSize
  rest : read + readSize count read ≤ count

section Calls

variable {openssl : Openssl} {data f : FileStream} {count read : Int}

/-- **Every call** asks for what the buffer and `count` leave room for. -/
theorem asksWithin (hcall : data.AtCall (readSize count) count f read) (hpos : 0 ≤ count)
    (hcount : count < 9223372036854775808) : AsksWithin count read := by
  obtain ⟨hread, hmost⟩ := hcall.within hpos
  have hsize := readSize_eq hcount hread hmost
  have hbuffer : fileBufferSize = 65536 := rfl
  constructor
  · exact ⟨hread, hmost⟩
  · unfold sizeCount
    omega
  · unfold sizeCount
    omega
  · exact readSize_le hcount hread
  · omega

/-- When a call is made, the first `read` bytes have been fed; the rest of the
loop starts there. -/
theorem updateFileLoop_atCall (hcall : data.AtCall (readSize count) count f read)
    (self : AtmosChecksum) :
    ∃ done : List (List UInt8), done.flatten = data.remaining.take read.toNat ∧
      updateFileLoop openssl count (done.foldl (update openssl) self) f read =
        self.updateFile openssl data count := by
  obtain ⟨done, hpieces, hread, hahead⟩ := hcall.done
  refine ⟨done, ?_, ?_⟩
  · rw [← hahead, ← hread, Int.toNat_natCast, List.take_left]
  · rw [updateFile, updateFileLoop_eq, updateFileLoop_eq, hpieces, List.foldl_append]

/-- A checksum with a context counts what it is fed. -/
theorem foldl_update_offset (pieces : List (List UInt8)) {self : AtmosChecksum}
    (h : self.internalState.isSome) :
    (pieces.foldl (update openssl) self).offset =
      self.offset + Int64.ofNat pieces.flatten.length := by
  induction pieces generalizing self with
  | nil => exact (Int64.add_zero _).symm
  | cons data pieces ih =>
      have hnext : (self.update openssl data).offset = self.offset + Int64.ofNat data.length := by
        obtain ⟨context, hcontext⟩ := Option.isSome_iff_exists.mp h
        unfold update
        rw [hcontext]
      rw [List.foldl_cons, ih (by rwa [update_internalState]), hnext, List.flatten_cons,
        List.length_append, Int64.ofNat_add, Int64.add_assoc]

/-- One without a context is fed nothing. -/
theorem foldl_update_none (pieces : List (List UInt8)) {self : AtmosChecksum}
    (h : self.internalState = none) : pieces.foldl (update openssl) self = self := by
  have hnext : ∀ data, self.update openssl data = self := by
    intro data
    unfold update
    rw [h]
  induction pieces with
  | nil => rfl
  | cons data pieces ih => rw [List.foldl_cons, hnext, ih]

end Calls

/-- **A file is fed as it was asked for.**  For every count the loop ends, and has
fed the first `count` bytes from the position on, or all there are.  At each of
its calls it has fed the first `read` of them. -/
theorem file_checksum_feeds (openssl : Openssl) (self : AtmosChecksum) {data : FileStream}
    (hdata : data.Delivers) {count : Int64} (hpos : 0 ≤ count) :
    ∃ pieces : List (List UInt8),
      (self.updateFile openssl data count.toInt).1 = pieces.foldl (update openssl) self ∧
      pieces.flatten = data.remaining.take count.toInt.toNat ∧
      data.Ahead pieces.flatten.length (self.updateFile openssl data count.toInt).2 ∧
      (self.updateFile openssl data count.toInt).1.offset =
        (if self.internalState.isSome then self.offset + Int64.ofNat pieces.flatten.length
        else self.offset) ∧
      (∀ f read, data.AtCall (readSize count.toInt) count.toInt f read →
        AsksWithin count.toInt read ∧
        ∃ done : List (List UInt8), done.flatten = data.remaining.take read.toNat ∧
          updateFileLoop openssl count.toInt (done.foldl (update openssl) self) f read =
            self.updateFile openssl data count.toInt) ∧
      ∃ f read, data.AtCall (readSize count.toInt) count.toInt f read ∧
        ((f.fread (readSize count.toInt read)).1 = [] ∨
          count.toInt ≤ read + (f.fread (readSize count.toInt read)).1.length) := by
  have hmost : count.toInt < 9223372036854775808 := count.toInt_lt
  have hleast : 0 ≤ count.toInt := Int64.le_iff_toInt_le.mp hpos
  have hresult : self.updateFile openssl data count.toInt =
      ((filePieces data count.toInt).foldl (update openssl) self,
        (data.readPieces (readSize count.toInt) count.toInt 0).2) := updateFileLoop_eq ..
  refine ⟨filePieces data count.toInt, congrArg Prod.fst hresult,
    flatten_filePieces hdata hleast hmost, ?_, ?_, ?_, FileStream.AtCall.first.exists_last⟩
  · rw [hresult]
    exact data.ahead_readPieces (readSize count.toInt) count.toInt 0
  · rw [hresult]
    split
    · rename_i hcontext
      exact foldl_update_offset _ hcontext
    · rename_i hcontext
      rw [Option.not_isSome_iff_eq_none] at hcontext
      rw [foldl_update_none _ hcontext]
  · intro f read hcall
    exact ⟨asksWithin hcall hleast hmost, updateFileLoop_atCall hcall self⟩

/-- Nine bytes are asked for where a file has six, in short reads. -/
theorem file_checksum_feeds_world :
    ∃ pieces : List (List UInt8),
      ((init (Openssl.replayDigests helloDigests) .wschecksum .sha1).updateFile
          (Openssl.replayDigests helloDigests) worldFile 9).1 =
        pieces.foldl (update (Openssl.replayDigests helloDigests))
          (init (Openssl.replayDigests helloDigests) .wschecksum .sha1) ∧
      pieces.flatten = bytes " world" ∧
      ((init (Openssl.replayDigests helloDigests) .wschecksum .sha1).updateFile
        (Openssl.replayDigests helloDigests) worldFile 9).1.offset = 6 := by
  have hdata : worldFile.Delivers := by
    unfold FileStream.Delivers worldFile
    decide
  obtain ⟨pieces, hfold, hflatten, -, hoffset, -, -⟩ :=
    @file_checksum_feeds (Openssl.replayDigests helloDigests)
      (init (Openssl.replayDigests helloDigests) .wschecksum .sha1) worldFile hdata 9 (by decide)
  have hbytes : pieces.flatten = bytes " world" := hflatten
  rw [hbytes] at hoffset
  exact ⟨pieces, hfold, hbytes, hoffset⟩

end AtmosChecksum

end Atmos
