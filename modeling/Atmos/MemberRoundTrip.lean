import Atmos.XmlBinding

/-!
# Members that are read back

What the generated binders make of the elements and attributes that the
generated unbinders write, member by member.

* `Member.bindInt_int64Text` — every 64-bit number is read back;
* `datetimeParse_stamp` — every broken-down time is read back, however many
  digits its year is written with and whatever zone follows;
* `StringArrays.foldl_bindChild` — every array is read back in its order.
-/

namespace Atmos

open ByteText CivilTime FixedMemory FormattedText XmlDocument

/-! ## Numbers and instants -/

theorem int64Text_eq (n : Int64) : int64Text n = padded 0 n.toInt := by
  have hlength := length_decimal_int64 n
  rw [int64Text, snprintf_of_length_lt (by omega), padded_zero]

/-- **A number is read back.** -/
theorem Member.bindInt_int64Text (m : Member Int64) (n : Int64) :
    m.bindInt (int64Text n) = ⟨n, 1⟩ := by
  have hscan : sscanf [.int] (int64Text n) = ⟨[.number n], false⟩ := by
    rw [int64Text_eq, ← List.append_nil (padded 0 n.toInt), sscanf_padded 0 n rfl]
    rfl
  rw [Member.bindInt, hscan]
  rfl

section Instants

variable (platform : TimePlatform)

/-- A small number and a member of `struct tm` do not overflow 64 bits. -/
theorem toInt_add_toInt64 (c : Int64) (x : Int32) (hc : 0 ≤ c.toInt ∧ c.toInt ≤ 1900) :
    (c + x.toInt64).toInt = c.toInt + x.toInt := by
  have hge := x.le_toInt
  have hlt := x.toInt_lt
  rw [Int64.toInt_add, Int32.toInt_toInt64]
  exact Int.bmod_eq_of_le (by omega) (by omega)

/-- Date and time, without the zone. -/
def stamp (width : Nat) (tm : BrokenDownTime) : CStr :=
  padded width (1900 + tm.tmYear.toInt) ++ 45 :: padded 2 (1 + tm.tmMon.toInt) ++
    45 :: padded 2 tm.tmMday.toInt ++ 84 :: padded 2 tm.tmHour.toInt ++
    58 :: padded 2 tm.tmMin.toInt ++ 58 :: padded 2 tm.tmSec.toInt

/-- The six numbers of a date and a time are read, whatever zone follows. -/
theorem sscanf_stamp (width : Nat) (tm : BrokenDownTime) {zone : CStr}
    (hzone : zone.takeWhile isDigit = []) :
    (sscanf dateTimeFormat (stamp width tm ++ zone)).items =
      [.number (1900 + tm.tmYear.toInt64), .number (1 + tm.tmMon.toInt64),
        .number tm.tmMday.toInt64, .number tm.tmHour.toInt64, .number tm.tmMin.toInt64,
        .number tm.tmSec.toInt64] ++ (sscanf [.word 7] zone).items := by
  have hyear : (1900 + tm.tmYear.toInt64).toInt = 1900 + tm.tmYear.toInt :=
    toInt_add_toInt64 1900 tm.tmYear (by decide)
  have hmon : (1 + tm.tmMon.toInt64).toInt = 1 + tm.tmMon.toInt :=
    toInt_add_toInt64 1 tm.tmMon (by decide)
  rw [stamp, dateTimeFormat, ← hyear, ← hmon, ← tm.tmMday.toInt_toInt64,
    ← tm.tmHour.toInt_toInt64, ← tm.tmMin.toInt_toInt64, ← tm.tmSec.toInt_toInt64]
  simp only [List.append_assoc, List.cons_append]
  rw [sscanf_padded _ _ rfl, sscanf_char, sscanf_padded _ _ rfl, sscanf_char, sscanf_padded _ _ rfl,
    sscanf_char, sscanf_padded _ _ rfl, sscanf_char, sscanf_padded _ _ rfl, sscanf_char,
    sscanf_padded _ _ hzone]
  rfl

/-- A word is one item at most. -/
theorem length_sscanf_word (width : Nat) (s : CStr) :
    (sscanf [.word width] s).items.length ≤ 1 := by
  rw [sscanf]
  split
  · exact Nat.zero_le _
  · exact Nat.le_refl _

/-- **A date and a time are read back**, and go to `timegm`: the zone does not
count. -/
theorem datetimeParse_stamp (width : Nat) (tm : BrokenDownTime) {zone : CStr}
    (hzone : zone.takeWhile isDigit = []) :
    datetimeParse (stamp width tm ++ zone) = timegm tm := by
  have hyear : (1900 + tm.tmYear.toInt64).toInt32 - 1900 = tm.tmYear := by
    rw [Int64.toInt32_add, Int32.toInt32_toInt64, Int32.add_comm]
    exact Int32.add_sub_cancel tm.tmYear 1900
  have hmon : (1 + tm.tmMon.toInt64).toInt32 - 1 = tm.tmMon := by
    rw [Int64.toInt32_add, Int32.toInt32_toInt64, Int32.add_comm]
    exact Int32.add_sub_cancel tm.tmMon 1
  have hitems := sscanf_stamp width tm hzone
  have hresult : (sscanf dateTimeFormat (stamp width tm ++ zone)).result ≠ 0 := by
    have hword := length_sscanf_word 7 zone
    rw [Scan.result, if_neg (by simp [hitems]), hitems]
    intro hzero
    have hnat := congrArg Int32.toInt hzero
    rw [Int32.toInt_ofNat_of_lt (by simp; omega)] at hnat
    simp at hnat
    omega
  rw [datetimeParse]
  refine (if_neg hresult).trans (congrArg timegm ?_)
  simp only [Scan.number, hitems]
  exact BrokenDownTime.ext tm.tmSec.toInt32_toInt64 tm.tmMin.toInt32_toInt64
    tm.tmHour.toInt32_toInt64 tm.tmMday.toInt32_toInt64 hmon hyear

/-- **A broken-down time is read back.** -/
theorem datetimeParse_strftime (tm : BrokenDownTime) :
    datetimeParse (strftime platform tm) = timegm tm :=
  datetimeParse_stamp platform.yearWidth tm rfl

/-- **An instant is read back** whose year `gmtime_r` can hold. -/
theorem datetimeParse_dateTimeText {time : Int64} (h : (gmtimeR time).isSome) :
    datetimeParse (dateTimeText platform time) = time := by
  obtain ⟨tm, htm⟩ := Option.isSome_iff_exists.mp h
  rw [dateTimeText, htm, Option.getD_some, datetimeParse_strftime, timegm_gmtimeR htm]

end Instants

/-! ## Texts -/

/-- The bytes of numbers and timestamps. -/
def IsStamp (s : CStr) : Prop := ∀ b ∈ s, isDigit b = true ∨ b ∈ bytes "-T:Z"

theorem isPlain_of_isStamp {s : CStr} (h : IsStamp s) : IsPlain s := by
  have hmarks : ∀ b ∈ bytes "-T:Z", (32 ≤ b ∧ b < 127) ∧ b ≠ ampersand := by decide +kernel
  apply isPlain_of_ascii
  intro b hb
  rcases h b hb with hdigit | hmark
  · rw [isDigit, Bool.and_eq_true, decide_eq_true_eq, decide_eq_true_eq] at hdigit
    grind [ampersand]
  · exact hmarks b hmark

theorem isStamp_padded (width : Nat) (n : Int) : IsStamp (padded width n) := by
  intro b hb
  rcases mem_padded hb with hdigit | rfl
  · exact .inl hdigit
  · exact .inr (by decide +kernel)

/-- Two parts of a timestamp and the mark between them. -/
theorem IsStamp.mark {s t : CStr} {c : UInt8} (hs : IsStamp s) (hc : c ∈ bytes "-T:Z")
    (ht : IsStamp t) : IsStamp (s ++ c :: t) := by
  intro b hb
  rcases List.mem_append.mp hb with hleft | hright
  · exact hs b hleft
  · rcases List.mem_cons.mp hright with rfl | hafter
    · exact .inr hc
    · exact ht b hafter

theorem isPlain_int64Text (n : Int64) : IsPlain (int64Text n) := by
  rw [int64Text_eq]
  exact isPlain_of_isStamp (isStamp_padded 0 n.toInt)

theorem isPlain_strftime (platform : TimePlatform) (tm : BrokenDownTime) :
    IsPlain (strftime platform tm) := by
  have hhyphen : (45 : UInt8) ∈ bytes "-T:Z" := by decide +kernel
  have hcolon : (58 : UInt8) ∈ bytes "-T:Z" := by decide +kernel
  have hdate := ((isStamp_padded platform.yearWidth (1900 + tm.tmYear.toInt)).mark hhyphen
    (isStamp_padded 2 (1 + tm.tmMon.toInt))).mark hhyphen (isStamp_padded 2 tm.tmMday.toInt)
  have hhour := hdate.mark (c := 84) (by decide +kernel) (isStamp_padded 2 tm.tmHour.toInt)
  have htime := (hhour.mark hcolon (isStamp_padded 2 tm.tmMin.toInt)).mark hcolon
    (isStamp_padded 2 tm.tmSec.toInt)
  have hzone : IsStamp [] := fun _ h => nomatch h
  exact isPlain_of_isStamp (htime.mark (by decide +kernel) hzone)

theorem valid_value {ok : CStr → Prop} {name text : CStr} (hname : IsName name) (htext : ok text)
    {m : Member Int64} :
    ∀ b ∈ if m.set ≠ 0 then [Built.value name text] else [], b.Valid ok := by
  intro b hb
  split at hb
  · rw [List.mem_singleton.mp hb]
    exact .value hname htext
  · cases hb

/-! ## Attributes -/

theorem eq_of_mem_unbindString {name : CStr} {s : Option CStr} {a : CStr × CStr}
    (h : a ∈ unbindString name s) : a.1 = name ∧ s = some a.2 := by
  obtain ⟨value, hvalue, rfl⟩ := List.mem_map.mp h
  exact ⟨rfl, Option.mem_toList.mp hvalue⟩

/-- What is written for a boolean. -/
def booleanText (value : Int32) : CStr := if value ≠ 0 then bytes "true" else bytes "false"

theorem Member.unbindBoolean_eq (name : CStr) (m : Member Int32) :
    m.unbindBoolean name = unbindString name (m.present.map booleanText) := by
  unfold Member.unbindBoolean Member.present
  split <;> rfl

theorem Member.unbindRequiredInt_eq (name : CStr) (m : Member Int64) :
    m.unbindRequiredInt name = unbindString name (some (int64Text m.value)) := rfl

theorem lookup_unbindString (name : CStr) (s : Option CStr) :
    (unbindString name s).lookup name = s := by
  cases s with
  | none => rfl
  | some value => exact List.lookup_cons_self

theorem lookup_unbindString_of_ne {name key : CStr} (h : key ≠ name) (s : Option CStr) :
    (unbindString name s).lookup key = none := by
  apply List.lookup_eq_none_iff.mpr
  intro a ha
  rw [(eq_of_mem_unbindString ha).1]
  exact bne_iff_ne.mpr h

theorem isText_booleanText (value : Int32) : IsText (booleanText value) := by
  have htrue : ∀ b ∈ bytes "true", 32 ≤ b ∧ b < 127 := by decide +kernel
  have hfalse : ∀ b ∈ bytes "false", 32 ≤ b ∧ b < 127 := by decide +kernel
  unfold booleanText
  split
  · exact isText_of_ascii htrue
  · exact isText_of_ascii hfalse

/-- Two attributes, each of which may be missing, can be written and read. -/
theorem valid_unbindString {name name' : CStr} {s s' : Option CStr}
    (hnames : IsName name ∧ IsName name' ∧ name' ≠ name)
    (hs : ∀ value, s = some value → IsText value)
    (hs' : ∀ value, s' = some value → IsText value) :
    (∀ a ∈ unbindString name s ++ unbindString name' s', IsName a.1 ∧ IsText a.2) ∧
      ((unbindString name s ++ unbindString name' s').map Prod.fst).Nodup := by
  obtain ⟨hname, hname', hne⟩ := hnames
  constructor
  · intro a ha
    rcases List.mem_append.mp ha with hfirst | hsecond
    · obtain ⟨rfl, hvalue⟩ := eq_of_mem_unbindString hfirst
      exact ⟨hname, hs _ hvalue⟩
    · obtain ⟨rfl, hvalue⟩ := eq_of_mem_unbindString hsecond
      exact ⟨hname', hs' _ hvalue⟩
  · cases s <;> cases s' <;> simp [unbindString, hne.symm]

/-- **A boolean is read back** as zero or one. -/
theorem Member.bindBoolean_booleanText (value : Int32) :
    bindBoolean (booleanText value) = ⟨if value ≠ 0 then 1 else 0, 1⟩ := by
  unfold booleanText
  split
  · rfl
  · have hne : bytes "false" ≠ bytes "true" := by decide +kernel
    rw [bindBoolean, if_neg hne]

/-! ## Arrays -/

namespace ChildNames

variable {ι : Type} (names : ChildNames ι)

theorem xmlName_injective : Function.Injective names.xmlName := fun i j h =>
  List.inj_on_of_nodup_map names.nodup (names.complete i) (names.complete j) h

/-- The chain of comparisons knows every member by its name. -/
theorem find_xmlName (i : ι) : names.find (names.xmlName i) = some i := by
  rw [ChildNames.find]
  cases hfind : names.all.find? fun j => names.xmlName j == names.xmlName i with
  | none =>
      have hne := List.find?_eq_none.mp hfind i (names.complete i)
      exact absurd (beq_self_eq_true _) hne
  | some j =>
      have hname : (names.xmlName j == names.xmlName i) = true :=
        @List.find?_some _ (fun j => names.xmlName j == names.xmlName i) _ _ hfind
      rw [names.xmlName_injective (beq_iff_eq.mp hname)]

end ChildNames

/-- The strings that are read for an array. -/
def rereadStrings (xml : XmlWriter) (strings : List (Option CStr)) : List (Option CStr) :=
  strings.filterMap fun s => s.map fun value => some (xml.textOf value)

namespace StringArrays

variable {ι : Type} (names : ChildNames ι) {xml : XmlWriter}

/-- The elements of arrays can be written where their strings can. -/
theorem unbind_valid {ok : CStr → Prop} {arrays : StringArrays ι}
    (hok : ∀ i s, some s ∈ arrays i → ok s) : ∀ b ∈ arrays.unbind names, b.Valid ok := by
  intro b hb
  obtain ⟨i, -, hstrings⟩ := List.mem_flatMap.mp hb
  obtain ⟨s, hs, hvalue⟩ := List.mem_filterMap.mp hstrings
  obtain ⟨value, rfl, rfl⟩ := Option.map_eq_some_iff.mp hvalue
  exact .value (names.isName i) (hok i value hs)

variable [DecidableEq ι]

/-- One array is read back at the end of what is there. -/
theorem foldl_bindStrings {i : ι} {strings : List (Option CStr)} {trees : List Tree}
    (h : List.Forall₂ (Rereads xml) (unbindStrings (names.xmlName i) strings) trees)
    (st : StringArrays ι) : trees.foldl (bindChild names) st =
      Function.update st i (st i ++ rereadStrings xml strings) := by
  induction strings generalizing trees st with
  | nil =>
      cases h
      rw [List.foldl_nil, rereadStrings, List.filterMap_nil, List.append_nil,
        Function.update_eq_self]
  | cons s strings ih =>
      cases s with
      | none => exact ih h st
      | some value =>
          cases h with
          | cons hvalue hrest =>
              obtain ⟨hname, hcontent⟩ := hvalue.value_spec
              rw [List.foldl_cons, ih hrest, bindChild, hname, names.find_xmlName]
              dsimp only
              rw [Function.update_idem, Function.update_self, hcontent, List.append_assoc]
              rfl

/-- **All arrays are read back**, in the order of the schema. -/
theorem foldl_bindChild {members : List ι} (hnodup : members.Nodup) {arrays : StringArrays ι}
    {trees : List Tree}
    (h : List.Forall₂ (Rereads xml)
      (members.flatMap fun i => unbindStrings (names.xmlName i) (arrays i)) trees)
    (st : StringArrays ι) : trees.foldl (bindChild names) st =
      fun i => if i ∈ members then st i ++ rereadStrings xml (arrays i) else st i := by
  induction members generalizing trees st with
  | nil =>
      cases h
      funext i
      rw [List.foldl_nil, if_neg (List.not_mem_nil)]
  | cons j members ih =>
      obtain ⟨hj, hmembers⟩ := List.nodup_cons.mp hnodup
      obtain ⟨first, rest, rfl, hfirst, hrest⟩ := forall₂_append_left h
      rw [List.foldl_append, foldl_bindStrings names hfirst, ih hmembers hrest]
      funext i
      by_cases hi : i = j
      · subst hi
        rw [if_neg hj, Function.update_self, if_pos List.mem_cons_self]
      · rw [Function.update_of_ne hi]
        by_cases hmem : i ∈ members
        · rw [if_pos hmem, if_pos (List.mem_cons_of_mem _ hmem)]
        · rw [if_neg hmem, if_neg (by rw [List.mem_cons]; exact not_or.mpr ⟨hi, hmem⟩)]

end StringArrays

end Atmos
