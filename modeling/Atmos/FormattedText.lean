import Mathlib.Data.List.TakeWhile
import Atmos.ByteText

/-!
# Formatted text

Numbers with a fixed number of digits, as `strftime` writes them, and the
directives of `sscanf` that read them back.

* `sscanf` — what a format takes from a text;
* `sscanf_padded` — a number that was written is read back, whatever follows it
  that is no digit.
-/

namespace FormattedText

open ByteText

/-! ## Numerals -/

/-- A number in decimal, with zeros in front of its digits up to a width. -/
def padded (width : Nat) (n : Int) : CStr :=
  (if n < 0 then [45] else []) ++
    (List.replicate (width - (digits n.natAbs).length) 48 ++ digits n.natAbs)

theorem padded_zero (n : Int) : padded 0 n = decimal n := by
  unfold padded decimal
  split <;> simp

theorem digits_ne_nil (n : Nat) : digits n ≠ [] := by
  intro h
  exact Nat.toDigits_ne_nil (List.map_eq_nil_iff.mp h)

/-- The characters of a number are the bytes of its digits. -/
theorem toNat_digit {n : Nat} {c : Char} (hc : c ∈ Nat.toDigits 10 n) :
    (UInt8.ofNat c.toNat).toNat = c.toNat ∧ 48 ≤ c.toNat ∧ c.toNat ≤ 57 := by
  have hdigit := Nat.isDigit_of_mem_toDigits (by decide) (by decide) hc
  simp only [Char.isDigit, Bool.and_eq_true, decide_eq_true_eq] at hdigit
  have hge : 48 ≤ c.toNat := UInt32.le_iff_toNat_le.mp hdigit.1
  have hle : c.toNat ≤ 57 := UInt32.le_iff_toNat_le.mp hdigit.2
  refine ⟨?_, hge, hle⟩
  rw [UInt8.toNat_ofNat']
  omega

theorem isDigit_of_mem_digits {n : Nat} {b : UInt8} (h : b ∈ digits n) : isDigit b = true := by
  obtain ⟨c, hc, rfl⟩ := List.mem_map.mp h
  obtain ⟨hbyte, hge, hle⟩ := toNat_digit hc
  rw [isDigit, Bool.and_eq_true, decide_eq_true_eq, decide_eq_true_eq, UInt8.le_iff_toNat_le,
    UInt8.le_iff_toNat_le, hbyte]
  exact ⟨hge, hle⟩

/-- Zeros in front of the digits of a number are digits too. -/
theorem isDigit_of_mem_zeros_digits {k n : Nat} {b : UInt8}
    (h : b ∈ List.replicate k 48 ++ digits n) : isDigit b = true := by
  rcases List.mem_append.mp h with hzero | hdigit
  · rw [List.eq_of_mem_replicate hzero]
    rfl
  · exact isDigit_of_mem_digits hdigit

/-- The digits of a number stand for it, with or without zeros in front. -/
theorem readDigits_zeros_digits (k n : Nat) :
    readDigits (List.replicate k 48 ++ digits n) = n := by
  have hall : ∀ b ∈ List.replicate k 48 ++ digits n, isDigit b = true := fun _ =>
    isDigit_of_mem_zeros_digits
  have hzeros : (List.replicate k (48 : UInt8)).foldl (fun m b => 10 * m + (b.toNat - 48)) 0 =
      0 := by
    clear hall
    induction k with
    | zero => rfl
    | succ k ih => exact ih
  calc
    readDigits (List.replicate k 48 ++ digits n)
        = (digits n).foldl (fun m b => 10 * m + (b.toNat - 48)) 0 := by
          rw [readDigits, List.takeWhile_eq_self_iff.mpr hall, List.foldl_append, hzeros]
    _ = Nat.ofDigitChars 10 (Nat.toDigits 10 n) 0 := by
          rw [digits, List.foldl_map, Nat.ofDigitChars_eq_foldl]
          refine List.foldl_ext _ _ 0 fun m c hc => ?_
          rw [(toNat_digit hc).1]
          rfl
    _ = n := Nat.ofDigitChars_ten_toDigits

theorem mem_padded {width : Nat} {n : Int} {b : UInt8} (h : b ∈ padded width n) :
    isDigit b = true ∨ b = 45 := by
  rcases List.mem_append.mp h with hsign | hdigits
  · split at hsign
    · exact .inr (List.mem_singleton.mp hsign)
    · cases hsign
  · exact .inl (isDigit_of_mem_zeros_digits hdigits)

/-- What stands behind the digits of a numeral does not count. -/
theorem readDigits_append {ds rest : CStr} (hds : ∀ b ∈ ds, isDigit b = true)
    (hrest : rest.takeWhile isDigit = []) : readDigits (ds ++ rest) = readDigits ds := by
  rw [readDigits, readDigits, List.takeWhile_append_of_pos hds, hrest, List.append_nil,
    List.takeWhile_eq_self_iff.mpr hds]

/-- A digit is neither white space nor a sign. -/
theorem isDigit_ne {d : UInt8} (h : isDigit d = true) :
    isSpace d = false ∧ d ≠ 43 ∧ d ≠ 45 := by
  rw [isDigit, Bool.and_eq_true, decide_eq_true_eq, decide_eq_true_eq] at h
  have hspace : d ≠ space ∧ ¬ d ≤ 13 := by grind
  refine ⟨?_, by grind, by grind⟩
  rw [isSpace, beq_eq_false_iff_ne.mpr hspace.1, decide_eq_false hspace.2, Bool.and_false]
  rfl

theorem strtoll_digits {ds rest : CStr} (hne : ds ≠ []) (hds : ∀ b ∈ ds, isDigit b = true)
    (hrest : rest.takeWhile isDigit = []) :
    strtoll (ds ++ rest) = .ofInt (min (readDigits ds) Int64.maxValue.toInt) := by
  obtain ⟨d, ds, rfl⟩ := List.exists_cons_of_ne_nil hne
  obtain ⟨hspace, hplus, hminus⟩ := isDigit_ne (hds d List.mem_cons_self)
  have hdrop : (d :: ds ++ rest).dropWhile isSpace = d :: ds ++ rest :=
    List.dropWhile_cons_of_neg (by rw [hspace]; decide)
  rw [strtoll, hdrop, ← readDigits_append hds hrest]
  split
  · rename_i heq
    exact absurd (List.cons.inj heq).1 hplus
  · rename_i heq
    exact absurd (List.cons.inj heq).1 hminus
  · rfl

theorem strtoll_minus_digits {ds rest : CStr} (hds : ∀ b ∈ ds, isDigit b = true)
    (hrest : rest.takeWhile isDigit = []) :
    strtoll (45 :: ds ++ rest) = .ofInt (max (-readDigits ds) Int64.minValue.toInt) := by
  have hdrop : (45 :: ds ++ rest).dropWhile isSpace = 45 :: ds ++ rest :=
    List.dropWhile_cons_of_neg (by decide)
  rw [strtoll, hdrop, ← readDigits_append hds hrest]
  rfl

/-- `strtoll` reads a number back. -/
theorem strtoll_padded (width : Nat) (n : Int64) {rest : CStr}
    (hrest : rest.takeWhile isDigit = []) : strtoll (padded width n.toInt ++ rest) = n := by
  have hmin := n.le_toInt
  have hmax := n.toInt_lt
  have hminValue : Int64.minValue.toInt = -9223372036854775808 := rfl
  have hmaxValue : Int64.maxValue.toInt = 9223372036854775807 := rfl
  have hne : ∀ k, List.replicate k 48 ++ digits n.toInt.natAbs ≠ [] := fun k =>
    List.append_ne_nil_of_right_ne_nil _ (digits_ne_nil _)
  by_cases hneg : n.toInt < 0
  · rw [padded, if_pos hneg]
    refine (strtoll_minus_digits (fun _ => isDigit_of_mem_zeros_digits) hrest).trans ?_
    rw [readDigits_zeros_digits, max_eq_left (by omega), ← n.ofInt_toInt]
    congr 1
    rw [Int64.ofInt_toInt]
    omega
  · rw [padded, if_neg hneg, List.nil_append,
      strtoll_digits (hne _) (fun _ => isDigit_of_mem_zeros_digits) hrest,
      readDigits_zeros_digits, min_eq_left (by omega), ← n.ofInt_toInt]
    congr 1
    rw [Int64.ofInt_toInt]
    omega

/-! ## `sscanf` -/

/-- The directives of a format. -/
inductive Directive where
  /-- `%d` and its longer forms: a number -/
  | int
  /-- `%7s` and the like: a word of at most so many bytes -/
  | word (width : Nat)
  /-- a byte that stands for itself -/
  | char (c : UInt8)
  deriving DecidableEq, Repr

/-- What a directive assigns; a number is not yet cut to its variable. -/
inductive Item where
  | number (n : Int64)
  | word (text : CStr)
  deriving DecidableEq, Repr

/-- What a call of `sscanf` assigns, and whether it stopped because the text was
at its end. -/
structure Scan where
  items : List Item
  atEnd : Bool
  deriving DecidableEq, Repr

namespace Scan

/-- A scan after one more assignment. -/
def push (item : Item) (scan : Scan) : Scan := { scan with items := item :: scan.items }

/-- The result of the call: how many assignments were made, or `EOF` where the
text ended before the first. -/
def result (scan : Scan) : Int32 :=
  if scan.items = [] ∧ scan.atEnd = true then -1 else .ofNat scan.items.length

/-- The variable at a place of the arguments, once the call is over. -/
def number (scan : Scan) (i : Nat) (initial : Int64) : Int64 :=
  match scan.items[i]? with
  | some (.number n) => n
  | _ => initial

end Scan

/-- The text behind a sign, if there is one. -/
def unsigned (s : CStr) : CStr := if s.head? = some 43 ∨ s.head? = some 45 then s.tail else s

/-- A sign, or none, and what is behind it. -/
theorem unsigned_cases (s : CStr) :
    s = 43 :: unsigned s ∨ s = 45 :: unsigned s ∨
      (s.head? ≠ some 43 ∧ s.head? ≠ some 45 ∧ unsigned s = s) := by
  unfold unsigned
  by_cases hplus : s.head? = some 43
  · obtain ⟨rest, rfl⟩ := List.head?_eq_some_iff.mp hplus
    exact Or.inl rfl
  · by_cases hminus : s.head? = some 45
    · obtain ⟨rest, rfl⟩ := List.head?_eq_some_iff.mp hminus
      exact Or.inr (Or.inl rfl)
    · exact Or.inr (Or.inr ⟨hplus, hminus, if_neg (not_or.mpr ⟨hplus, hminus⟩)⟩)

/-- `strtoll` reads a text that is a number, cut to the range of a 64-bit
integer; there is no white space in front. -/
theorem strtoll_numeral {s : CStr} (hne : unsigned s ≠ [])
    (hds : ∀ b ∈ unsigned s, isDigit b = true) :
    s.dropWhile isSpace = s ∧
      strtoll s = .ofInt (if s.head? = some 45 then
        max (-readDigits (unsigned s)) Int64.minValue.toInt
      else min (readDigits (unsigned s)) Int64.maxValue.toInt) := by
  rcases unsigned_cases s with hsign | hsign | ⟨-, hminus, hsame⟩
  · generalize unsigned s = ds at *
    subst hsign
    refine ⟨List.dropWhile_cons_of_neg (by decide), ?_⟩
    rw [if_neg (by simp), strtoll, List.dropWhile_cons_of_neg (by decide)]
    rfl
  · generalize unsigned s = ds at *
    subst hsign
    refine ⟨List.dropWhile_cons_of_neg (by decide), ?_⟩
    have hread := @strtoll_minus_digits ds [] hds rfl
    rw [List.append_nil] at hread
    rw [hread, if_pos List.head?_cons]
  · rw [hsame] at hne hds ⊢
    have hread := @strtoll_digits s [] hne hds rfl
    rw [List.append_nil] at hread
    refine ⟨?_, by rw [if_neg hminus, hread]⟩
    obtain ⟨d, ds, rfl⟩ := List.exists_cons_of_ne_nil hne
    exact List.dropWhile_cons_of_neg (by rw [(isDigit_ne (hds d List.mem_cons_self)).1]; decide)

/-- `sscanf`. A directive fails where the text is at its end or does not match
it, and nothing is read after that. -/
def sscanf : List Directive → CStr → Scan
  | [], _ => ⟨[], false⟩
  | .int :: format, s =>
      let text := s.dropWhile isSpace
      if text = [] then ⟨[], true⟩
      else if (unsigned text).takeWhile isDigit = [] then ⟨[], false⟩
      else (sscanf format ((unsigned text).dropWhile isDigit)).push (.number (strtoll text))
  | .word width :: format, s =>
      let text := s.dropWhile isSpace
      let word := (text.takeWhile fun b => !isSpace b).take width
      if text = [] then ⟨[], true⟩
      else (sscanf format (text.drop word.length)).push (.word word)
  | .char _ :: _, [] => ⟨[], true⟩
  | .char c :: format, b :: s => if b = c then sscanf format s else ⟨[], false⟩

theorem sscanf_char (c : UInt8) (format : List Directive) (s : CStr) :
    sscanf (.char c :: format) (c :: s) = sscanf format s := if_pos rfl

/-- A numeral begins with no white space, and digits follow its sign. -/
theorem padded_parts (width : Nat) (n : Int) (rest : CStr) :
    (padded width n ++ rest).dropWhile isSpace = padded width n ++ rest ∧
      ∃ ds, ds ≠ [] ∧ (∀ b ∈ ds, isDigit b = true) ∧
        unsigned (padded width n ++ rest) = ds ++ rest := by
  have hall : ∀ b ∈ List.replicate (width - (digits n.natAbs).length) 48 ++ digits n.natAbs,
      isDigit b = true := fun _ => isDigit_of_mem_zeros_digits
  unfold padded
  generalize hds : List.replicate (width - (digits n.natAbs).length) 48 ++ digits n.natAbs = ds
    at hall
  have hne : ds ≠ [] := by
    rw [← hds]
    exact List.append_ne_nil_of_right_ne_nil _ (digits_ne_nil _)
  by_cases hneg : n < 0
  · rw [if_pos hneg]
    exact ⟨List.dropWhile_cons_of_neg (by decide), ds, hne, hall, if_pos (.inr rfl)⟩
  · rw [if_neg hneg, List.nil_append]
    refine ⟨?_, ds, hne, hall, ?_⟩
    all_goals
      obtain ⟨d, ds, rfl⟩ := List.exists_cons_of_ne_nil hne
      obtain ⟨hspace, hplus, hminus⟩ := isDigit_ne (hall d List.mem_cons_self)
    · exact List.dropWhile_cons_of_neg (by rw [hspace]; decide)
    · refine if_neg ?_
      rintro (h | h)
      · exact hplus (Option.some.inj h)
      · exact hminus (Option.some.inj h)

/-- **A number that was written is read back**, and the directives after it get
what follows. -/
theorem sscanf_padded (width : Nat) (n : Int64) {rest : CStr}
    (hrest : rest.takeWhile isDigit = []) (format : List Directive) :
    sscanf (.int :: format) (padded width n.toInt ++ rest) =
      (sscanf format rest).push (.number n) := by
  obtain ⟨hspace, ds, hne, hds, hunsigned⟩ := padded_parts width n.toInt rest
  have hnil : padded width n.toInt ++ rest ≠ [] := by
    intro h
    rw [h] at hunsigned
    exact hne (List.append_eq_nil_iff.mp hunsigned.symm).1
  have htake : (ds ++ rest).takeWhile isDigit = ds := by
    rw [List.takeWhile_append_of_pos hds, hrest, List.append_nil]
  have hdrop : (ds ++ rest).dropWhile isDigit = rest := by
    have hsplit := List.takeWhile_append_dropWhile (p := isDigit) (l := rest)
    rw [List.dropWhile_append_of_pos hds]
    rwa [hrest, List.nil_append] at hsplit
  rw [sscanf]
  rw [hspace, if_neg hnil, hunsigned, htake, if_neg hne, hdrop, strtoll_padded width n hrest]

end FormattedText
