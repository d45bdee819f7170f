import Atmos.ByteText

/-!
# Percent-encoding

Every byte outside the unreserved set `A-Z a-z 0-9 - . _ ~` is written as `%`
and two upper-case hexadecimal digits.

* `decode_encode` — nothing is lost, so `encode` is injective;
* `mem_encode` — an encoded text holds unreserved bytes and `%` only, so no
  delimiter survives;
* `length_encode_le` — the text grows at most threefold;
* `intercalate_encode_eq_iff` — unreserved texts are left alone, and no others,
  also in a join.
-/

namespace PercentEncoding

open ByteText

abbrev percent : UInt8 := 37

/-- `A-Z a-z 0-9 - . _ ~` -/
def unreserved (b : UInt8) : Bool :=
  (65 ≤ b && b ≤ 90) || (97 ≤ b && b ≤ 122) || (48 ≤ b && b ≤ 57) ||
    b == 45 || b == 46 || b == 95 || b == 126

/-- The upper-case hexadecimal digit of a number below sixteen. -/
def hexDigit (n : UInt8) : UInt8 := if n < 10 then 48 + n else 55 + n

/-- The value of a hexadecimal digit of either case. -/
def hexValue (b : UInt8) : Option UInt8 :=
  if 48 ≤ b ∧ b ≤ 57 then some (b - 48)
  else if 65 ≤ b ∧ b ≤ 70 then some (b - 55)
  else if 97 ≤ b ∧ b ≤ 102 then some (b - 87)
  else none

def encodeByte (b : UInt8) : CStr :=
  if unreserved b then [b] else [percent, hexDigit (b / 16), hexDigit (b % 16)]

def encode (s : CStr) : CStr := s.flatMap encodeByte

/-- Inverse of `encode`; a `%` that starts no escape stands for itself. -/
def decode : CStr → CStr
  | b :: h :: l :: s =>
      if b = percent then
        match hexValue h, hexValue l with
        | some hi, some lo => (16 * hi + lo) :: decode s
        | _, _ => b :: decode (h :: l :: s)
      else b :: decode (h :: l :: s)
  | s => s

@[simp] theorem encode_nil : encode [] = [] := rfl

@[simp] theorem encode_cons (b : UInt8) (s : CStr) :
    encode (b :: s) = encodeByte b ++ encode s := rfl

/-! ## Nothing is lost -/

theorem high_lt (b : UInt8) : b / 16 < 16 := by
  have hb := b.toNat_lt
  rw [UInt8.lt_iff_toNat_lt, UInt8.toNat_div]
  simp
  omega

theorem low_lt (b : UInt8) : b % 16 < 16 := by
  rw [UInt8.lt_iff_toNat_lt, UInt8.toNat_mod]
  simp
  omega

theorem hexValue_hexDigit {n : UInt8} (hn : n < 16) :
    hexValue (hexDigit n) = some n := by
  unfold hexDigit hexValue
  split
  · have hrange : 48 ≤ 48 + n ∧ 48 + n ≤ 57 := by grind
    rw [if_pos hrange]
    exact congrArg some (by grind)
  · have hdigit : ¬ (48 ≤ 55 + n ∧ 55 + n ≤ 57) := by grind
    have hletter : 65 ≤ 55 + n ∧ 55 + n ≤ 70 := by grind
    rw [if_neg hdigit, if_pos hletter]
    exact congrArg some (by grind)

theorem not_unreserved_percent : unreserved percent = false := by decide

/-- A byte that is not `%` is passed through. -/
theorem decode_cons_of_ne {b : UInt8} (hb : b ≠ percent) (s : CStr) :
    decode (b :: s) = b :: decode s := by
  match s with
  | [] => simp [decode]
  | [h] => simp [decode]
  | h :: l :: s => simp [decode, hb]

/-- Without a `%` there is nothing to decode. -/
theorem decode_of_notMem {s : CStr} (h : percent ∉ s) : decode s = s := by
  induction s with
  | nil => rfl
  | cons b s ih =>
      rw [List.mem_cons, not_or] at h
      rw [decode_cons_of_ne (Ne.symm h.1), ih h.2]

/-- A well-formed escape is read as one byte. -/
theorem decode_escape {hi lo : UInt8} (hhi : hi < 16) (hlo : lo < 16) (s : CStr) :
    decode (percent :: hexDigit hi :: hexDigit lo :: s) = (16 * hi + lo) :: decode s := by
  simp [decode, hexValue_hexDigit hhi, hexValue_hexDigit hlo]

theorem decode_encodeByte (b : UInt8) (s : CStr) :
    decode (encodeByte b ++ s) = b :: decode s := by
  unfold encodeByte
  split
  · rename_i hun
    have hb : b ≠ percent := by
      rintro rfl
      rw [not_unreserved_percent] at hun
      cases hun
    exact decode_cons_of_ne hb s
  · have hbyte : 16 * (b / 16) + b % 16 = b := by
      apply UInt8.toNat_inj.mp
      have := b.toNat_lt
      simp
      omega
    have hescape := decode_escape (high_lt b) (low_lt b) s
    rw [hbyte] at hescape
    exact hescape

/-- **Nothing is lost.**  Decoding an encoded text gives the text back. -/
@[simp] theorem decode_encode (s : CStr) : decode (encode s) = s := by
  induction s with
  | nil => rfl
  | cons b s ih => rw [encode_cons, decode_encodeByte, ih]

theorem encode_injective : Function.Injective encode := by
  intro s t h
  have hdec := congrArg decode h
  simpa using hdec

/-! ## What an encoded text looks like -/

theorem hexDigit_unreserved {n : UInt8} (hn : n < 16) : unreserved (hexDigit n) = true := by
  unfold hexDigit unreserved
  split
  · have hrange : 48 ≤ 48 + n ∧ 48 + n ≤ 57 := by grind
    simp [hrange]
  · have hrange : 65 ≤ 55 + n ∧ 55 + n ≤ 90 := by grind
    simp [hrange]

/-- **No delimiter survives.**  An encoded text is made of unreserved bytes and
`%` only. -/
theorem mem_encode {b : UInt8} {s : CStr} (h : b ∈ encode s) :
    unreserved b = true ∨ b = percent := by
  obtain ⟨c, -, hb⟩ := List.mem_flatMap.mp h
  unfold encodeByte at hb
  split at hb
  · rename_i hc
    rw [List.mem_singleton] at hb
    exact Or.inl (hb ▸ hc)
  · simp only [List.mem_cons, List.not_mem_nil, or_false] at hb
    rcases hb with rfl | rfl | rfl
    · exact Or.inr rfl
    · exact Or.inl (hexDigit_unreserved (high_lt c))
    · exact Or.inl (hexDigit_unreserved (low_lt c))

/-- A byte that is neither unreserved nor `%` does not occur in an encoded
text. -/
theorem notMem_encode {b : UInt8} (hun : unreserved b = false) (hb : b ≠ percent)
    (s : CStr) : b ∉ encode s := by
  intro h
  rcases mem_encode h with h | h
  · rw [hun] at h
    cases h
  · exact hb h

theorem length_encodeByte_le (b : UInt8) : (encodeByte b).length ≤ 3 := by
  unfold encodeByte
  split <;> simp

/-- **The text grows at most threefold.** -/
theorem length_encode_le (s : CStr) : (encode s).length ≤ 3 * s.length := by
  induction s with
  | nil => simp
  | cons b s ih =>
      have hb := length_encodeByte_le b
      rw [encode_cons, List.length_append, List.length_cons]
      omega

/-- Unreserved texts are left alone. -/
theorem encode_of_unreserved {s : CStr} (h : ∀ b ∈ s, unreserved b = true) :
    encode s = s := by
  induction s with
  | nil => rfl
  | cons b s ih =>
      have hb : encodeByte b = [b] := by
        rw [encodeByte, if_pos (h b (by simp))]
      rw [encode_cons, hb, ih fun c hc => h c (List.mem_cons_of_mem _ hc)]
      rfl

theorem length_encodeByte_of_not {b : UInt8} (h : unreserved b = false) :
    (encodeByte b).length = 3 := by
  rw [encodeByte, h]
  rfl

/-- A text does not shrink, and only unreserved texts do not grow. -/
theorem length_encode_eq_iff (s : CStr) :
    s.length ≤ (encode s).length ∧
      ((encode s).length = s.length ↔ ∀ b ∈ s, unreserved b = true) := by
  induction s with
  | nil => simp
  | cons b s ih =>
      obtain ⟨hle, hiff⟩ := ih
      rw [encode_cons, List.length_append, List.length_cons, List.forall_mem_cons, ← hiff]
      cases hb : unreserved b with
      | true =>
          have hone : (encodeByte b).length = 1 := by
            rw [encodeByte, if_pos hb]
            rfl
          simp only [true_and]
          omega
      | false =>
          have hthree := length_encodeByte_of_not hb
          simp only [Bool.false_eq_true, false_and, iff_false]
          omega

/-- A join grows where one of its texts does. -/
theorem length_intercalate_encode (glue : CStr) (texts : List CStr) :
    (glue.intercalate texts).length ≤ (glue.intercalate (texts.map encode)).length ∧
      ((glue.intercalate (texts.map encode)).length = (glue.intercalate texts).length →
        ∀ s ∈ texts, ∀ b ∈ s, unreserved b = true) := by
  induction texts with
  | nil => exact ⟨le_rfl, fun _ s hs => nomatch hs⟩
  | cons s texts ih =>
      obtain ⟨hle, hiff⟩ := length_encode_eq_iff s
      cases texts with
      | nil =>
          rw [List.map_singleton, List.intercalate_singleton, List.intercalate_singleton]
          refine ⟨hle, fun heq t ht => ?_⟩
          rw [List.mem_singleton.mp ht]
          exact hiff.mp heq
      | cons t texts =>
          obtain ⟨hrest, htexts⟩ := ih
          rw [List.map_cons, List.map_cons, List.intercalate_cons_cons,
            List.intercalate_cons_cons, ← List.map_cons]
          simp only [List.length_append]
          refine ⟨by omega, fun heq => List.forall_mem_cons.mpr ⟨hiff.mp ?_, htexts ?_⟩⟩ <;> omega

/-- **A join is left alone** exactly when all its texts are unreserved. -/
theorem intercalate_encode_eq_iff (glue : CStr) (texts : List CStr) :
    glue.intercalate (texts.map encode) = glue.intercalate texts ↔
      ∀ s ∈ texts, ∀ b ∈ s, unreserved b = true := by
  constructor
  · intro h
    exact (length_intercalate_encode glue texts).2 (congrArg List.length h)
  · intro h
    rw [List.map_congr_left (fun s hs => encode_of_unreserved (h s hs)), List.map_id']

end PercentEncoding
