import Mathlib.Data.List.TakeWhile
import Atmos.ByteText

/-!
# Fixed-size memory

A C object of `n` bytes is a `Block n`: a byte list of exactly that length, so
that no operation can change its size.  Writes that would pass the end of the
block, and reads that find no terminator before it, have no result.

* `Block.put_cstrAt` — a stored C string reads back;
* `Block.put_cstrAt_above` — a write above a stored string leaves it alone;
* `foldlM_appendSlot` — a run of stores into an array with a count;
* `strlcpy` and `snprintf` — the truncating copies; `strcpyTo` — the
  unchecked one, which has no result where it would overflow.
-/

namespace FixedMemory

open ByteText

/-- The C string at the start of a piece of memory, if it is terminated. -/
def readCStr : List UInt8 → Option CStr
  | [] => none
  | b :: mem => if b = 0 then some [] else (readCStr mem).map (b :: ·)

/-- A string ends at the first terminator, whatever follows it. -/
theorem readCStr_append (s : List UInt8) (mem : List UInt8) :
    readCStr (s ++ 0 :: mem) = some (s.takeWhile (· != 0)) := by
  induction s with
  | nil => simp [readCStr]
  | cons b s ih =>
      by_cases hb : b = 0
      · simp [readCStr, hb]
      · simp [readCStr, hb, ih]

/-- A text without a terminator inside is a string. -/
theorem takeWhile_ne_zero {s : CStr} (hs : (0 : UInt8) ∉ s) :
    s.takeWhile (· != 0) = s := by
  rw [List.takeWhile_eq_self_iff]
  intro b hb
  have hne : b ≠ 0 := fun heq => hs (heq ▸ hb)
  simpa using hne

/-- What a successful read has seen. -/
theorem readCStr_eq_some {mem : List UInt8} {s : CStr} (h : readCStr mem = some s) :
    (0 : UInt8) ∉ s ∧ ∃ rest, mem = s ++ 0 :: rest := by
  induction mem generalizing s with
  | nil => simp [readCStr] at h
  | cons b mem ih =>
      by_cases hb : b = 0
      · subst hb
        have hs : s = [] := by simpa [readCStr] using h.symm
        exact ⟨by simp [hs], mem, by simp [hs]⟩
      · rw [readCStr, if_neg hb] at h
        obtain ⟨t, ht, rfl⟩ := Option.map_eq_some_iff.mp h
        obtain ⟨hnot, rest, rfl⟩ := ih ht
        refine ⟨?_, rest, rfl⟩
        simp [hnot, Ne.symm hb]

/-- The bytes `strlcpy(dest, src, n)` stores: at most `n - 1` bytes of the
source and a terminator. -/
def strlcpy (src : CStr) (n : Nat) : List UInt8 := src.take (n - 1) ++ [0]

theorem length_strlcpy_le (src : CStr) {n : Nat} (h : 0 < n) : (strlcpy src n).length ≤ n := by
  simp [strlcpy]
  omega

/-- The copy stays in a field of that size. -/
theorem strlcpy_fits {n off destsz : Nat} (h : 0 < destsz ∧ off + destsz ≤ n) (src : CStr) :
    off + (strlcpy src destsz).length ≤ n := by
  have hlength := length_strlcpy_le src h.1
  omega

/-- A string that fits is copied whole. -/
theorem strlcpy_of_length_lt {src : CStr} {n : Nat} (h : src.length < n) :
    strlcpy src n = src ++ [0] := by
  rw [strlcpy, List.take_of_length_le (by omega)]

/-- The bytes `strncpy(dest, src, n)` stores: exactly `n`, with no terminator
after a source of that length. -/
def strncpy (src : CStr) (n : Nat) : List UInt8 := src.take n ++ List.replicate (n - src.length) 0

@[simp] theorem length_strncpy (src : CStr) (n : Nat) : (strncpy src n).length = n := by
  simp [strncpy]
  omega

/-- A source may be cut to the size of the copy. -/
theorem strncpy_take (src : CStr) (n : Nat) : strncpy (src.take n) n = strncpy src n := by
  rw [strncpy, strncpy, List.take_take, Nat.min_self, List.length_take]
  congr 2
  omega

/-- A piece of memory holds a string exactly when it has a terminator. -/
theorem readCStr_isSome_iff {mem : List UInt8} : (readCStr mem).isSome ↔ (0 : UInt8) ∈ mem := by
  constructor
  · intro h
    obtain ⟨s, hs⟩ := Option.isSome_iff_exists.mp h
    obtain ⟨-, rest, rfl⟩ := readCStr_eq_some hs
    exact List.mem_append_right _ (List.mem_cons_self ..)
  · intro h
    obtain ⟨s, rest, rfl⟩ := List.mem_iff_append.mp h
    rw [readCStr_append]
    rfl

/-- The copy of a string is a string exactly when its terminator fits. -/
theorem readCStr_strncpy_isSome {src : CStr} (hsrc : (0 : UInt8) ∉ src) (n : Nat) :
    (readCStr (strncpy src n)).isSome ↔ src.length < n := by
  have htake : (0 : UInt8) ∉ src.take n := fun hmem => hsrc (List.mem_of_mem_take hmem)
  rw [readCStr_isSome_iff, strncpy, List.mem_append, List.mem_replicate, Nat.sub_ne_zero_iff_lt]
  simp [htake]

/-- A string whose terminator fits reads back, whatever follows its field. -/
theorem readCStr_strncpy_append {src : CStr} (hsrc : (0 : UInt8) ∉ src) {n : Nat}
    (h : src.length < n) (mem : List UInt8) : readCStr (strncpy src n ++ mem) = some src := by
  obtain ⟨k, hk⟩ : ∃ k, n - src.length = k + 1 := ⟨n - src.length - 1, by omega⟩
  rw [strncpy, List.take_of_length_le h.le, hk, List.replicate_succ, List.append_assoc,
    List.cons_append, readCStr_append, takeWhile_ne_zero hsrc]

/-- The string `snprintf(dest, n, ...)` leaves in `dest`. -/
def snprintf (n : Nat) (text : CStr) : CStr := text.take (n - 1)

@[simp] theorem snprintf_of_length_lt {n : Nat} {text : CStr} (h : text.length < n) :
    snprintf n text = text :=
  List.take_of_length_le (by omega)

theorem length_snprintf_le (n : Nat) (text : CStr) : (snprintf n text).length ≤ n - 1 :=
  List.length_take_le _ _

/-- `strcpy` into a buffer of `n` bytes: no result where it would write past
the end. -/
def strcpyTo (n : Nat) (src : CStr) : Option CStr :=
  if src.length < n then some src else none

@[simp] theorem strcpyTo_of_length_lt {n : Nat} {src : CStr} (h : src.length < n) :
    strcpyTo n src = some src := if_pos h

theorem strcpyTo_eq_some {n : Nat} {src s : CStr} :
    strcpyTo n src = some s ↔ src.length < n ∧ src = s := by
  simp [strcpyTo]

/-- An object of `n` bytes. -/
structure Block (n : Nat) where
  mem : List UInt8
  size : mem.length = n

namespace Block

variable {n : Nat}

/-- The block after bytes that fit are stored at an offset. -/
def put (b : Block n) (off : Nat) (data : List UInt8) (h : off + data.length ≤ n) :
    Block n :=
  ⟨b.mem.take off ++ data ++ b.mem.drop (off + data.length), by
    have := b.size
    simp
    omega⟩

/-- Store bytes at an offset; no result if they pass the end of the block. -/
def write (b : Block n) (off : Nat) (data : List UInt8) : Option (Block n) :=
  if h : off + data.length ≤ n then some (b.put off data h) else none

/-- The C string at an offset. -/
def cstrAt (b : Block n) (off : Nat) : Option CStr := readCStr (b.mem.drop off)

theorem put_mem (b : Block n) {off : Nat} {data : List UInt8}
    (h : off + data.length ≤ n) : (b.put off data h).mem =
      b.mem.take off ++ data ++ b.mem.drop (off + data.length) := rfl

/-- A write that fits succeeds. -/
theorem write_of_fits (b : Block n) {off : Nat} {data : List UInt8}
    (h : off + data.length ≤ n) : b.write off data = some (b.put off data h) :=
  dif_pos h

/-- **A stored string reads back**, up to its first terminator. -/
theorem put_cstrAt (b : Block n) {off : Nat} (s : List UInt8)
    (h : off + (s ++ [0]).length ≤ n) :
    (b.put off (s ++ [0]) h).cstrAt off = some (s.takeWhile (· != 0)) := by
  have hoff : (b.mem.take off).length = off := by
    have := b.size
    simp at h ⊢
    omega
  have hdrop : (b.put off (s ++ [0]) h).mem.drop off =
      s ++ 0 :: b.mem.drop (off + (s ++ [0]).length) := by
    rw [put_mem, List.append_assoc, List.drop_append_of_le_length (by omega),
      List.drop_of_length_le (by omega)]
    simp
  rw [cstrAt, hdrop, readCStr_append]

/-- Bytes stored at the start change nothing exactly when they are there
already. -/
theorem put_zero_eq_self_iff (b : Block n) {data : List UInt8} (h : 0 + data.length ≤ n) :
    b.put 0 data h = b ↔ data <+: b.mem := by
  have hmem : (b.put 0 data h).mem = data ++ b.mem.drop data.length := by
    rw [put_mem, List.take_zero, List.nil_append, Nat.zero_add]
  constructor
  · intro heq
    rw [heq] at hmem
    exact ⟨b.mem.drop data.length, hmem.symm⟩
  · rintro ⟨rest, hrest⟩
    have hdrop : b.mem.drop data.length = rest := by rw [← hrest, List.drop_left]
    rw [hdrop, hrest] at hmem
    obtain ⟨mem, size⟩ := b
    rw [put, Block.mk.injEq]
    exact hmem

/-- **Bytes stored without a terminator** are a string exactly when the block
has one behind them. -/
theorem put_zero_cstrAt_iff (b : Block n) {s : CStr} (hs : (0 : UInt8) ∉ s)
    (h : 0 + s.length ≤ n) :
    (b.put 0 s h).cstrAt 0 = some s ↔ b.mem[s.length]? = some 0 := by
  have hread : (b.put 0 s h).cstrAt 0 = readCStr (s ++ b.mem.drop s.length) := by
    rw [cstrAt, List.drop_zero, put_mem, List.take_zero, List.nil_append, Nat.zero_add]
  rw [hread, ← List.head?_drop]
  constructor
  · intro heq
    obtain ⟨-, rest, hrest⟩ := readCStr_eq_some heq
    rw [List.append_cancel_left hrest, List.head?_cons]
  · intro hhead
    obtain ⟨rest, hrest⟩ := List.head?_eq_some_iff.mp hhead
    rw [hrest, readCStr_append, takeWhile_ne_zero hs]

/-- A string and its terminator lie in the block. -/
theorem cstrAt_zero_length {b : Block n} {s : CStr} (hread : b.cstrAt 0 = some s) :
    s.length < n := by
  obtain ⟨-, rest, hrest⟩ := readCStr_eq_some hread
  rw [List.drop_zero] at hrest
  have hsize := b.size
  rw [hrest, List.length_append, List.length_cons] at hsize
  omega

/-- **A string stored behind some bytes** makes a string of both. -/
theorem put_cstrAt_behind {b : Block n} {front t : CStr} (hfront : front <+: b.mem)
    (hnul : (0 : UInt8) ∉ front ++ t) (h : front.length + (t ++ [0]).length ≤ n) :
    (b.put front.length (t ++ [0]) h).cstrAt 0 = some (front ++ t) := by
  have htake : b.mem.take front.length = front := (List.prefix_iff_eq_take.mp hfront).symm
  have hmem : (b.put front.length (t ++ [0]) h).mem =
      (front ++ t) ++ 0 :: b.mem.drop (front.length + (t ++ [0]).length) := by
    rw [put_mem, htake]
    simp
  rw [cstrAt, List.drop_zero, hmem, readCStr_append, takeWhile_ne_zero hnul]

/-- **A string stored inside another** replaces what follows its first byte. -/
theorem put_cstrAt_splice {b : Block n} {s t : CStr} {k : Nat} (hread : b.cstrAt 0 = some s)
    (hk : k ≤ s.length) (ht : (0 : UInt8) ∉ t) (h : k + (t ++ [0]).length ≤ n) :
    (b.put k (t ++ [0]) h).cstrAt 0 = some (s.take k ++ t) := by
  obtain ⟨hs, rest, hrest⟩ := readCStr_eq_some hread
  rw [List.drop_zero] at hrest
  have hfront : s.take k <+: b.mem := by
    rw [hrest]
    exact (List.take_prefix k s).trans (List.prefix_append s _)
  have hnul : (0 : UInt8) ∉ s.take k ++ t := by
    rw [List.mem_append]
    exact fun hmem => hmem.elim (fun hmem => hs (List.mem_of_mem_take hmem)) ht
  have hlength : (s.take k).length = k := List.length_take_of_le hk
  have hbehind := put_cstrAt_behind hfront hnul (by omega)
  simpa only [hlength] using hbehind

/-- A write that starts above the terminator of a stored string leaves the
string alone. -/
theorem put_cstrAt_above {b : Block n} {off off' : Nat} {s : CStr} {data : List UInt8}
    (hread : b.cstrAt off = some s) (habove : off + s.length < off')
    (h : off' + data.length ≤ n) : (b.put off' data h).cstrAt off = some s := by
  obtain ⟨hs, rest, hrest⟩ := readCStr_eq_some hread
  have hlen : off' ≤ b.mem.length := by
    have := b.size
    omega
  have htake : (b.mem.take off').drop off =
      s ++ 0 :: rest.take (off' - off - (s.length + 1)) := by
    rw [List.drop_take, hrest, List.take_append]
    have hpos : off' - off - s.length = (off' - off - (s.length + 1)) + 1 := by omega
    rw [List.take_of_length_le (by omega), hpos, List.take_succ_cons]
  have hdrop : (b.put off' data h).mem.drop off = s ++ 0 ::
      (rest.take (off' - off - (s.length + 1)) ++
        (data ++ b.mem.drop (off' + data.length))) := by
    rw [put_mem, List.append_assoc, List.drop_append_of_le_length (by simp; omega), htake]
    simp
  rw [cstrAt, hdrop, readCStr_append, takeWhile_ne_zero hs]

/-! ### Two fields of a block -/

/-- The bytes of a field after some of them are stored at its start. -/
def overwrite (field data : List UInt8) : List UInt8 := data ++ field.drop data.length

/-- A field that is filled to its end has the bytes it was given. -/
theorem overwrite_of_length_le {field data : List UInt8} (h : field.length ≤ data.length) :
    overwrite field data = data := by
  rw [overwrite, List.drop_of_length_le h, List.append_nil]

/-- A string in a field is read back from it. -/
theorem readCStr_overwrite {s : CStr} (hs : (0 : UInt8) ∉ s) (field : List UInt8) (k : Nat) :
    readCStr (overwrite field (strlcpy s k)) = some (s.take (k - 1)) := by
  have htake : (0 : UInt8) ∉ s.take (k - 1) := fun hmem => hs (List.mem_of_mem_take hmem)
  rw [overwrite, strlcpy, List.append_assoc, List.singleton_append, readCStr_append,
    takeWhile_ne_zero htake]

/-- Bytes stored in the first field. -/
theorem put_zero_take (b : Block n) {data : List UInt8} (h : 0 + data.length ≤ n) {k : Nat}
    (hk : data.length ≤ k) : (b.put 0 data h).mem.take k = overwrite (b.mem.take k) data := by
  rw [put_mem, List.take_zero, List.nil_append, List.take_append, List.take_of_length_le hk,
    overwrite, List.drop_take, Nat.zero_add]

/-- The second field is left alone. -/
theorem put_zero_drop (b : Block n) {data : List UInt8} (h : 0 + data.length ≤ n) {k : Nat}
    (hk : data.length ≤ k) : (b.put 0 data h).mem.drop k = b.mem.drop k := by
  rw [put_mem, List.take_zero, List.nil_append, List.drop_append, List.drop_of_length_le hk,
    List.nil_append, List.drop_drop]
  congr 1
  omega

/-- Bytes stored in the second field. -/
theorem put_drop (b : Block n) {k : Nat} {data : List UInt8} (h : k + data.length ≤ n) :
    (b.put k data h).mem.drop k = overwrite (b.mem.drop k) data := by
  have hlength : (b.mem.take k).length = k := by
    have := b.size
    simp
    omega
  rw [put_mem, List.append_assoc, List.drop_append_of_le_length (by omega),
    List.drop_of_length_le (by omega), List.nil_append, overwrite, List.drop_drop]

/-- The first field is left alone. -/
theorem put_take (b : Block n) {k : Nat} {data : List UInt8} (h : k + data.length ≤ n) :
    (b.put k data h).mem.take k = b.mem.take k := by
  have hlength : (b.mem.take k).length = k := by
    have := b.size
    simp
    omega
  rw [put_mem, List.append_assoc, List.take_append_of_le_length (by omega),
    List.take_of_length_le (by omega)]

/-! ### A block as one text field -/

/-- A zeroed object. -/
def zero (n : Nat) : Block n := ⟨List.replicate n 0, List.length_replicate⟩

/-- `strncpy` with the size of the field writes every byte of it. -/
def strncpy (src : CStr) : Block n := ⟨FixedMemory.strncpy src n, length_strncpy src n⟩

/-- `strcpy` to the start of the block: no result if it passes the end. -/
def strcpy (b : Block n) (src : CStr) : Option (Block n) := b.write 0 (src ++ [0])

/-- `strcat` to the string at the start of the block: no result if it passes the
end, or if there is no string. -/
def strcat (b : Block n) (src : CStr) : Option (Block n) :=
  (b.cstrAt 0).bind fun text => b.write text.length (src ++ [0])

/-- The block holds a string, as much of a text as fits. -/
def Holds (b : Block n) (text : CStr) : Prop := b.cstrAt 0 = some (text.take (n - 1))

instance (b : Block n) (text : CStr) : Decidable (b.Holds text) :=
  inferInstanceAs (Decidable (b.cstrAt 0 = _))

/-- A zeroed field holds the empty string. -/
theorem zero_holds (h : 0 < n) : (zero n).Holds [] := by
  obtain ⟨rest, hrest⟩ : ∃ rest, List.replicate n (0 : UInt8) = 0 :: rest :=
    ⟨List.replicate (n - 1) 0, by rw [← List.replicate_succ]; congr 1; omega⟩
  rw [Holds, cstrAt, List.drop_zero]
  exact (congrArg readCStr hrest).trans (by simp [readCStr])

/-- **A full-size `strncpy`** leaves a string exactly when the text is shorter
than the field. -/
theorem strncpy_holds_iff {src : CStr} (hsrc : (0 : UInt8) ∉ src) :
    (strncpy src : Block n).Holds src ↔ src.length < n := by
  constructor
  · intro h
    rw [← readCStr_strncpy_isSome hsrc]
    exact Option.isSome_iff_exists.mpr ⟨_, h⟩
  · intro h
    have hread := readCStr_strncpy_append hsrc h []
    rw [List.append_nil] at hread
    rw [Holds, List.take_of_length_le (by omega)]
    exact hread

/-- **A `strcpy`** stays in the field exactly when the text is shorter. -/
theorem strcpy_isSome_iff (b : Block n) (src : CStr) :
    (b.strcpy src).isSome ↔ src.length < n := by
  unfold strcpy write
  split
  · rename_i h
    rw [List.length_append, List.length_singleton] at h
    simp only [Option.isSome_some, true_iff]
    omega
  · rename_i h
    rw [List.length_append, List.length_singleton] at h
    simp only [Option.isSome_none, Bool.false_eq_true, false_iff]
    omega

/-- If it does, the field holds the text. -/
theorem strcpy_holds {b b' : Block n} {src : CStr} (hsrc : (0 : UInt8) ∉ src)
    (h : b.strcpy src = some b') : b'.Holds src := by
  have hlength : src.length < n := by
    rw [← strcpy_isSome_iff b, h]
    rfl
  have hfits : 0 + (src ++ [0]).length ≤ n := by
    rw [List.length_append, List.length_singleton]
    omega
  rw [strcpy, write_of_fits b hfits] at h
  obtain rfl := Option.some.inj h
  rw [Holds, put_cstrAt, takeWhile_ne_zero hsrc, List.take_of_length_le (by omega)]

/-- **A `strcat`** appends its text if there is room for it, and else has no
result. -/
theorem strcat_bind_cstrAt {b : Block n} {s src : CStr} (hread : b.cstrAt 0 = some s)
    (hsrc : (0 : UInt8) ∉ src) :
    (b.strcat src).bind (·.cstrAt 0) = strcpyTo n (s ++ src) := by
  have hlength : (src ++ [0]).length = src.length + 1 := List.length_append
  rw [strcat, hread, Option.bind_some, strcpyTo, List.length_append]
  split
  · have hfits : s.length + (src ++ [0]).length ≤ n := by omega
    rw [write_of_fits b hfits, Option.bind_some, put_cstrAt_splice hread le_rfl hsrc,
      List.take_length]
  · have hfits : ¬ s.length + (src ++ [0]).length ≤ n := by omega
    rw [write, dif_neg hfits]
    rfl

end Block

/-! ## Filling an array -/

section Filling

variable {σ π : Type*} (store : π → σ → σ)

/-- Store an item in the first unused slot of an array and count it; no result
past the end of the array. -/
def appendSlot (array : List σ × Nat) (item : π) : Option (List σ × Nat) := do
  let slot ← array.1[array.2]?
  some (array.1.set array.2 (store item slot), array.2 + 1)

/-- **A run of stores** changes the slots behind the used ones, one for each
item, and no other; it has no result when the slots run out. -/
theorem foldlM_appendSlot (items : List π) {slots : List σ} {count : Nat}
    (hcount : count ≤ slots.length) :
    items.foldlM (appendSlot store) (slots, count) =
      if count + items.length ≤ slots.length then
        some (slots.take count ++ List.zipWith store items (slots.drop count) ++
          slots.drop (count + items.length), count + items.length)
      else none := by
  induction items generalizing slots count with
  | nil => simp [hcount]
  | cons item items ih =>
      rw [List.foldlM_cons]
      by_cases hroom : count < slots.length
      · have hget : slots[count]? = some slots[count] := List.getElem?_eq_getElem hroom
        have hset : slots.set count (store item slots[count]) =
            slots.take count ++ store item slots[count] :: slots.drop (count + 1) := by
          rw [List.set_eq_take_append_cons_drop, if_pos hroom]
        have hstep : appendSlot store (slots, count) item =
            some (slots.set count (store item slots[count]), count + 1) := by
          rw [appendSlot, hget]
          rfl
        have htake : (slots.set count (store item slots[count])).take (count + 1) =
            slots.take count ++ [store item slots[count]] := by
          rw [hset, List.take_append, List.take_of_length_le (by simp), List.length_take,
            Nat.min_eq_left hroom.le, Nat.add_sub_cancel_left]
          rfl
        have hdrop : ∀ k, (slots.set count (store item slots[count])).drop (count + 1 + k) =
            slots.drop (count + 1 + k) := fun k => List.drop_set_of_lt (by omega)
        have hlen : count + 1 + items.length = count + (items.length + 1) := by omega
        have hdrop₀ := hdrop 0
        rw [Nat.add_zero] at hdrop₀
        rw [hstep, Option.bind_eq_bind, Option.bind_some, ih (by rwa [List.length_set]),
          htake, hdrop, hdrop₀, List.length_set, List.length_cons, hlen,
          List.drop_eq_getElem_cons hroom, List.zipWith_cons_cons]
        simp
      · have hget : slots[count]? = none := List.getElem?_eq_none (by omega)
        have hstep : appendSlot store (slots, count) item = none := by
          rw [appendSlot, hget]
          rfl
        rw [hstep, if_neg (by rw [List.length_cons]; omega)]
        rfl

/-- Where every slot is left showing its item, the stored slots show the
items. -/
theorem map_zipWith_store {ι ε : Type*} {view : σ → Option ε} {items : List ι}
    {item : ι → π} {shown : ι → ε}
    (h : ∀ x ∈ items, ∀ slot, view (store (item x) slot) = some (shown x))
    {slots : List σ} (hroom : items.length ≤ slots.length) :
    (List.zipWith store (items.map item) slots).map view =
      (items.map shown).map some := by
  induction items generalizing slots with
  | nil => rfl
  | cons x items ih =>
      cases slots with
      | nil => simp at hroom
      | cons slot slots =>
          rw [List.map_cons, List.zipWith_cons_cons, List.map_cons, List.map_cons,
            List.map_cons, h x (by simp),
            ih (fun y hy => h y (List.mem_cons_of_mem _ hy)) (by simpa using hroom)]

/-- The other way round: slots that show some items were each left showing
theirs. -/
theorem exists_view_of_map_zipWith {ι ε : Type*} {view : σ → Option ε} {items : List ι}
    {item : ι → π} {shown : ι → ε} {slots : List σ} (hroom : items.length ≤ slots.length)
    (h : (List.zipWith store (items.map item) slots).map view = (items.map shown).map some) :
    ∀ x ∈ items, ∃ slot, view (store (item x) slot) = some (shown x) := by
  induction items generalizing slots with
  | nil => exact fun x hx => absurd hx List.not_mem_nil
  | cons y items ih =>
      cases slots with
      | nil => simp at hroom
      | cons slot slots =>
          rw [List.map_cons, List.zipWith_cons_cons, List.map_cons, List.map_cons,
            List.map_cons] at h
          obtain ⟨hview, hrest⟩ := List.cons.inj h
          intro x hx
          rcases List.mem_cons.mp hx with rfl | hx
          · exact ⟨slot, hview⟩
          · exact ih (by simpa using hroom) hrest x hx

/-- An array holds some items from its start, and is as it was behind them. -/
structure HoldsItems (hold : π → σ → σ → Prop) (items : List π) (slots : List σ)
    (array : List σ × Nat) : Prop where
  count : array.2 = items.length
  rest : array.1.drop items.length = slots.drop items.length
  held : ∀ (i : Nat) item, items[i]? = some item →
    ∃ slot slot', slots[i]? = some slot ∧ array.1[i]? = some slot' ∧ hold item slot slot'

/-- **Filling an array** leaves it holding the items exactly when each of them
is held by the slot it is stored in. -/
theorem holdsItems_zipWith {hold : π → σ → σ → Prop} {ok : π → Prop} {items : List π}
    {slots : List σ} (hroom : items.length ≤ slots.length)
    (hstore : ∀ item ∈ items, ∀ slot, hold item slot (store item slot) ↔ ok item) :
    HoldsItems hold items slots
        (List.zipWith store items slots ++ slots.drop items.length, items.length) ↔
      ∀ item ∈ items, ok item := by
  have hlength : (List.zipWith store items slots).length = items.length := by
    rw [List.length_zipWith, Nat.min_eq_left hroom]
  have hslot : ∀ {i : Nat} {item}, items[i]? = some item → ∃ slot, slots[i]? = some slot ∧
      (List.zipWith store items slots ++ slots.drop items.length)[i]? =
        some (store item slot) := by
    intro i item hitem
    have hi : i < items.length := (List.getElem?_eq_some_iff.mp hitem).1
    have hget := List.getElem?_eq_getElem (hi.trans_le hroom)
    refine ⟨_, hget, ?_⟩
    rw [List.getElem?_append_left (hlength ▸ hi), List.getElem?_zipWith, hitem, hget]
  constructor
  · intro h item hmem
    obtain ⟨i, hitem⟩ := List.getElem?_of_mem hmem
    obtain ⟨slot, slot', hslots, harray, hheld⟩ := h.held i item hitem
    obtain ⟨slot'', hslots', hstored⟩ := hslot hitem
    cases hslots.symm.trans hslots'
    cases harray.symm.trans hstored
    exact (hstore item hmem slot).mp hheld
  · intro h
    refine ⟨rfl, ?_, ?_⟩
    · rw [List.drop_append_of_le_length hlength.ge, List.drop_of_length_le hlength.le,
        List.nil_append]
    · intro i item hitem
      have hmem := List.mem_of_getElem? hitem
      obtain ⟨slot, hslots, hstored⟩ := hslot hitem
      exact ⟨slot, _, hslots, hstored, (hstore item hmem slot).mpr (h item hmem)⟩

/-- Filling equal slots. -/
theorem zipWith_replicate_of_le {items : List π} {n : Nat}
    (hroom : items.length ≤ n) (slot : σ) :
    List.zipWith store items (List.replicate n slot) = items.map (store · slot) := by
  induction items generalizing n with
  | nil => simp
  | cons item items ih =>
      cases n with
      | zero => simp at hroom
      | succ n =>
          rw [List.replicate_succ, List.zipWith_cons_cons, List.map_cons,
            ih (by simpa using hroom)]

end Filling

end FixedMemory
