import Mathlib.Data.List.Sort

/-!
# Byte texts

A C string is modelled by the list of its bytes before the terminator.  This
file collects what a program that compares, sorts, joins and cuts such texts
needs to know about them:

* `toLower` / `lowercase` — `tolower` in the C locale, byte by byte;
* `decimal` — a number as `printf` writes it, and `strtoll`, which reads it;
* `strcmp` and `sortTexts` — the unsigned lexicographic order, and the fact
  that sorting forgets the order of the input (`sortTexts_eq_of_perm`);
* `append_sep_inj`, `intercalate_inj` and `splitPair_intercalate` — fields that
  do not contain the separator can be read back from the joined text;
* `cut` and `scanFields` — the loop that walks over the separated fields of a
  text with `strstr`, and its meaning as a fold over `List.splitOn`;
* `foldFields_eq_mapFields` — such a loop read as a reading pass followed by a
  storing pass.
-/

namespace ByteText

/-- The bytes of a C string, without the terminator. -/
abbrev CStr := List UInt8

/-- The bytes of a string literal. -/
def bytes (s : String) : CStr := s.toUTF8.data.toList

abbrev newline : UInt8 := 10
abbrev space : UInt8 := 32
abbrev comma : UInt8 := 44
abbrev colon : UInt8 := 58
abbrev equals : UInt8 := 61

/-! ## Letter case -/

/-- `tolower` in the C locale. -/
def toLower (b : UInt8) : UInt8 := if 65 ≤ b ∧ b ≤ 90 then b + 32 else b

/-- `tolower` applied to every byte. -/
def lowercase (s : CStr) : CStr := s.map toLower

/-- A byte outside both letter ranges is the lower case of itself only. -/
theorem toLower_eq_iff {b c : UInt8} (hupper : ¬ (65 ≤ c ∧ c ≤ 90))
    (hlower : ¬ (97 ≤ c ∧ c ≤ 122)) : toLower b = c ↔ b = c := by
  unfold toLower
  split <;> grind

@[simp] theorem toLower_eq_colon {b : UInt8} : toLower b = colon ↔ b = colon :=
  toLower_eq_iff (by decide) (by decide)

@[simp] theorem toLower_eq_space {b : UInt8} : toLower b = space ↔ b = space :=
  toLower_eq_iff (by decide) (by decide)

@[simp] theorem toLower_eq_newline {b : UInt8} :
    toLower b = newline ↔ b = newline :=
  toLower_eq_iff (by decide) (by decide)

@[simp] theorem lowercase_nil : lowercase [] = [] := rfl

@[simp] theorem lowercase_cons (b : UInt8) (s : CStr) :
    lowercase (b :: s) = toLower b :: lowercase s := rfl

@[simp] theorem lowercase_append (s t : CStr) :
    lowercase (s ++ t) = lowercase s ++ lowercase t :=
  List.map_append

@[simp] theorem length_lowercase (s : CStr) : (lowercase s).length = s.length :=
  List.length_map _

/-- Lower-casing neither adds nor removes a newline. -/
@[simp] theorem newline_mem_lowercase {s : CStr} :
    newline ∈ lowercase s ↔ newline ∈ s := by
  simp [lowercase]

/-! ## Numbers -/

/-- The decimal digits of a number. -/
def digits (n : Nat) : CStr := (Nat.toDigits 10 n).map fun c => UInt8.ofNat c.toNat

/-- `printf` with `%d`, for an integer of any size. -/
def decimal (n : Int) : CStr :=
  if n < 0 then 45 :: digits n.natAbs else digits n.natAbs

/-- A sign takes one more character than the digits. -/
theorem length_decimal_le {n : Int} {k : Nat} (h : (digits n.natAbs).length ≤ k) :
    (decimal n).length ≤ k + 1 := by
  unfold decimal
  split
  · exact Nat.succ_le_succ h
  · exact h.trans (Nat.le_succ k)

theorem length_decimal_int32 (n : Int32) : (decimal n.toInt).length ≤ 11 := by
  have hlt := n.toInt_lt
  have hle := n.le_toInt
  apply length_decimal_le
  rw [digits, List.length_map]
  exact (Nat.length_toDigits_le_iff (by decide) (by decide)).mpr (by omega)

theorem length_decimal_int64 (n : Int64) : (decimal n.toInt).length ≤ 20 := by
  have hlt := n.toInt_lt
  have hle := n.le_toInt
  apply length_decimal_le
  rw [digits, List.length_map]
  exact (Nat.length_toDigits_le_iff (by decide) (by decide)).mpr (by omega)

/-- `isspace` in the C locale. -/
def isSpace (b : UInt8) : Bool := b == space || 9 ≤ b && b ≤ 13

/-- `isdigit` -/
def isDigit (b : UInt8) : Bool := 48 ≤ b && b ≤ 57

/-- The number the decimal digits at the start of a text stand for. -/
def readDigits (s : CStr) : Nat :=
  (s.takeWhile isDigit).foldl (fun n b => 10 * n + (b.toNat - 48)) 0

/-- `strtoll(s, NULL, 10)`: the number at the start of a text, cut to the range
of a 64-bit integer. -/
def strtoll (s : CStr) : Int64 :=
  match s.dropWhile isSpace with
  | 43 :: s => Int64.ofInt (min (readDigits s) Int64.maxValue.toInt)
  | 45 :: s => Int64.ofInt (max (-readDigits s) Int64.minValue.toInt)
  | s => Int64.ofInt (min (readDigits s) Int64.maxValue.toInt)

/-! ## Order -/

/-- The sign of `strcmp`: bytes compare as unsigned numbers, and a proper
prefix comes first. -/
abbrev strcmp (s t : CStr) : Ordering := compare s t

/-- `strcmp s t <= 0`. -/
abbrev TextLe (s t : CStr) : Prop := (strcmp s t).isLE = true

instance : Std.Total TextLe where
  total s t := by
    cases h : strcmp s t with
    | lt => exact Or.inl (by simp [TextLe, h])
    | eq => exact Or.inl (by simp [TextLe, h])
    | gt =>
        have hlt : strcmp t s = .lt := Std.OrientedCmp.lt_of_gt h
        exact Or.inr (by simp [TextLe, hlt])

instance : IsTrans CStr TextLe where
  trans _ _ _ hst htu := Std.TransCmp.isLE_trans hst htu

instance : Std.Antisymm TextLe where
  antisymm _ _ hst hts :=
    Std.LawfulEqCmp.eq_of_compare (Std.OrientedCmp.isLE_antisymm hst hts)

/-- Texts sorted by `strcmp`. -/
def sortTexts (ls : List CStr) : List CStr := ls.insertionSort TextLe

theorem sortTexts_perm (ls : List CStr) : (sortTexts ls).Perm ls :=
  List.perm_insertionSort _ ls

/-- **Sorting forgets the order.**  Equal texts are indistinguishable, so the
sorted list is determined by the multiset of its entries. -/
theorem sortTexts_eq_of_perm {ls ls' : List CStr} (h : ls.Perm ls') :
    sortTexts ls = sortTexts ls' := by
  have hperm : (sortTexts ls).Perm (sortTexts ls') :=
    (sortTexts_perm ls).trans (h.trans (sortTexts_perm ls').symm)
  exact List.Perm.eq_of_pairwise' (r := TextLe) (List.pairwise_insertionSort _ ls)
    (List.pairwise_insertionSort _ ls') hperm

/-- Filtering a sorted list sorts the filtered list. -/
theorem filter_sortTexts (p : CStr → Bool) (ls : List CStr) :
    (sortTexts ls).filter p = sortTexts (ls.filter p) := by
  have hsorted : ((sortTexts ls).filter p).Pairwise TextLe :=
    (List.pairwise_insertionSort _ ls).filter p
  have hperm : ((sortTexts ls).filter p).Perm (sortTexts (ls.filter p)) :=
    ((sortTexts_perm ls).filter p).trans (sortTexts_perm _).symm
  exact List.Perm.eq_of_pairwise' (r := TextLe) hsorted
    (List.pairwise_insertionSort _ _) hperm

/-! ## Separated fields -/

section Fields

variable {α : Type*} [DecidableEq α] {sep : α}

omit [DecidableEq α] in
/-- A field that does not contain the separator ends at the first one. -/
theorem append_sep_inj {s s' t t' : List α} (hs : sep ∉ s) (hs' : sep ∉ s')
    (h : s ++ sep :: t = s' ++ sep :: t') : s = s' ∧ t = t' := by
  induction s generalizing s' with
  | nil =>
      cases s' with
      | nil => simpa using h
      | cons b s' =>
          have hb : sep = b := (List.cons.inj h).1
          exact absurd (by simp [hb]) hs'
  | cons a s ih =>
      cases s' with
      | nil =>
          have ha : a = sep := (List.cons.inj h).1
          exact absurd (by simp [ha]) hs
      | cons b s' =>
          obtain ⟨rfl, htail⟩ := List.cons.inj h
          have hnot : sep ∉ s := fun hm => hs (List.mem_cons_of_mem _ hm)
          have hnot' : sep ∉ s' := fun hm => hs' (List.mem_cons_of_mem _ hm)
          obtain ⟨rfl, ht⟩ := ih hnot hnot' htail
          exact ⟨rfl, ht⟩

omit [DecidableEq α] in
/-- As many fields as there are separators can be read back, with what follows them. -/
theorem foldr_sep_inj {fields fields' : List (List α)} {t t' : List α}
    (hlength : fields.length = fields'.length) (hfields : ∀ field ∈ fields, sep ∉ field)
    (hfields' : ∀ field ∈ fields', sep ∉ field)
    (h : fields.foldr (fun field text => field ++ sep :: text) t =
      fields'.foldr (fun field text => field ++ sep :: text) t') : fields = fields' ∧ t = t' := by
  induction fields generalizing fields' with
  | nil =>
      cases fields' with
      | nil => exact ⟨rfl, h⟩
      | cons field' fields' => cases hlength
  | cons field fields ih =>
      cases fields' with
      | nil => cases hlength
      | cons field' fields' =>
          obtain ⟨rfl, hrest⟩ := append_sep_inj (hfields field (List.mem_cons_self ..))
            (hfields' field' (List.mem_cons_self ..)) h
          obtain ⟨rfl, ht⟩ := ih (Nat.succ.inj hlength)
            (fun f hf => hfields f (List.mem_cons_of_mem _ hf))
            (fun f hf => hfields' f (List.mem_cons_of_mem _ hf)) hrest
          exact ⟨rfl, ht⟩

/-- Non-empty lines without the separator can be read back from their join;
the empty join has no lines. -/
theorem intercalate_inj {ls ls' : List (List α)}
    (hls : ∀ l ∈ ls, l ≠ [] ∧ sep ∉ l) (hls' : ∀ l ∈ ls', l ≠ [] ∧ sep ∉ l)
    (h : [sep].intercalate ls = [sep].intercalate ls') : ls = ls' := by
  have hempty : ∀ {ms : List (List α)}, (∀ l ∈ ms, l ≠ [] ∧ sep ∉ l) →
      [sep].intercalate ms = [] → ms = [] := by
    intro ms hms hnil
    by_contra hne
    have hsplit := List.splitOn_intercalate sep (fun l hl => (hms l hl).2) hne
    rw [hnil, List.splitOn_nil] at hsplit
    exact (hms [] (by simp [← hsplit])).1 rfl
  by_cases hnil : ls = []
  · subst hnil
    exact (hempty hls' h.symm).symm
  · by_cases hnil' : ls' = []
    · subst hnil'
      exact hempty hls h
    · have hl := List.splitOn_intercalate sep (fun l hl => (hls l hl).2) hnil
      have hl' := List.splitOn_intercalate sep (fun l hl => (hls' l hl).2) hnil'
      rw [← hl, h, hl']

omit [DecidableEq α] in
/-- A join starts like its first text. -/
theorem head?_intercalate (glue : List α) {first : List α} (hne : first ≠ [])
    (ls : List (List α)) : (glue.intercalate (first :: ls)).head? = first.head? := by
  obtain ⟨b, l, rfl⟩ := List.exists_cons_of_ne_nil hne
  cases ls with
  | nil => rw [List.intercalate_singleton]
  | cons l' ls =>
      rw [List.intercalate_cons_cons]
      rfl

omit [DecidableEq α] in
/-- A text in front of a join. -/
theorem append_intercalate (glue text first : List α) (ls : List (List α)) :
    text ++ glue.intercalate (first :: ls) = glue.intercalate ((text ++ first) :: ls) := by
  cases ls with
  | nil => simp
  | cons l ls => simp [List.intercalate_cons_cons]

omit [DecidableEq α] in
/-- The loop that appends the glue and then the next text. -/
theorem foldl_glue (glue first : List α) (ls : List (List α)) :
    ls.foldl (fun joined l => joined ++ glue ++ l) first = glue.intercalate (first :: ls) := by
  induction ls generalizing first with
  | nil => simp
  | cons l ls ih =>
      rw [List.foldl_cons, ih, List.intercalate_cons_cons, ← append_intercalate]

omit [DecidableEq α] in
/-- Joining one text more. -/
theorem intercalate_concat (glue : List α) {ls : List (List α)} (hne : ls ≠ [])
    (l : List α) : glue.intercalate (ls ++ [l]) = glue.intercalate ls ++ glue ++ l := by
  induction ls with
  | nil => exact absurd rfl hne
  | cons a ls ih =>
      cases ls with
      | nil => simp [List.intercalate_cons_cons]
      | cons b ls =>
          have hrec := ih (List.cons_ne_nil b ls)
          rw [List.cons_append] at hrec
          rw [List.cons_append, List.cons_append, List.intercalate_cons_cons, hrec,
            List.intercalate_cons_cons]
          simp

omit [DecidableEq α] in
/-- A join with a two-part glue, seen as a join with its first part. -/
theorem intercalate_glue (sep : α) (glue : List α) (l : List α) (ls : List (List α)) :
    (sep :: glue).intercalate (l :: ls) =
      [sep].intercalate (l :: ls.map (glue ++ ·)) := by
  induction ls generalizing l with
  | nil => simp
  | cons m ls ih =>
      have htail : (sep :: glue).intercalate (m :: ls) =
          [sep].intercalate (m :: ls.map (glue ++ ·)) := ih m
      rw [List.intercalate_cons_cons, htail, List.map_cons, List.intercalate_cons_cons,
        ← append_intercalate]
      simp

omit [DecidableEq α] in
/-- Pieces that are no longer than others make the same text only where each of
them is the same. -/
theorem flatMap_eq_iff_of_length_le {β : Type*} {f g : β → List α}
    (h : ∀ x, (f x).length ≤ (g x).length) (xs : List β) :
    xs.flatMap f = xs.flatMap g ↔ ∀ x ∈ xs, f x = g x := by
  have hrest : ∀ ys : List β, (ys.flatMap f).length ≤ (ys.flatMap g).length := by
    intro ys
    induction ys with
    | nil => exact Nat.le_refl 0
    | cons y ys ih =>
        rw [List.flatMap_cons, List.flatMap_cons, List.length_append, List.length_append]
        exact Nat.add_le_add (h y) ih
  induction xs with
  | nil => simp
  | cons x xs ih =>
      rw [List.flatMap_cons, List.flatMap_cons, List.forall_mem_cons]
      constructor
      · intro heq
        have hlength := congrArg List.length heq
        rw [List.length_append, List.length_append] at hlength
        have hhead := h x
        have htail := hrest xs
        obtain ⟨hx, hxs⟩ := List.append_inj heq (by omega)
        exact ⟨hx, ih.mp hxs⟩
      · intro ⟨hx, hxs⟩
        rw [hx, ih.mpr hxs]

/-- Cut a text at every separator of two letters. -/
def splitPair (a b : α) : List α → List (List α)
  | [] => [[]]
  | [x] => [[x]]
  | x :: y :: s =>
      if x = a ∧ y = b then [] :: splitPair a b s
      else (splitPair a b (y :: s)).modifyHead (x :: ·)

theorem splitPair_cons_of_ne {a b x : α} (h : x ≠ a) (s : List α) :
    splitPair a b (x :: s) = (splitPair a b s).modifyHead (x :: ·) := by
  cases s with
  | nil => rfl
  | cons y s => rw [splitPair, if_neg fun heq => h heq.1]

theorem splitPair_of_notMem {a b : α} {s : List α} (h : a ∉ s) : splitPair a b s = [s] := by
  induction s with
  | nil => rfl
  | cons x s ih =>
      rw [List.mem_cons, not_or] at h
      obtain ⟨hx, hs⟩ := h
      rw [splitPair_cons_of_ne (Ne.symm hx), ih hs]
      rfl

theorem splitPair_append {a b : α} {s : List α} (h : a ∉ s) (t : List α) :
    splitPair a b (s ++ a :: b :: t) = s :: splitPair a b t := by
  induction s with
  | nil => simp [splitPair]
  | cons x s ih =>
      rw [List.mem_cons, not_or] at h
      obtain ⟨hx, hs⟩ := h
      rw [List.cons_append, splitPair_cons_of_ne (Ne.symm hx), ih hs]
      rfl

/-- Pieces without the first letter of the separator are read back from their
join. -/
theorem splitPair_intercalate {a b : α} {ls : List (List α)} (hls : ∀ l ∈ ls, a ∉ l)
    (hne : ls ≠ []) : splitPair a b ([a, b].intercalate ls) = ls := by
  induction ls with
  | nil => exact absurd rfl hne
  | cons l ls ih =>
      obtain ⟨hl, hrest⟩ := List.forall_mem_cons.mp hls
      cases ls with
      | nil => rw [List.intercalate_singleton, splitPair_of_notMem hl]
      | cons m ls =>
          have happend : l ++ [a, b] ++ [a, b].intercalate (m :: ls) =
              l ++ a :: b :: [a, b].intercalate (m :: ls) := by
            rw [List.append_assoc]
            rfl
          rw [List.intercalate_cons_cons, happend, splitPair_append hl,
            ih hrest (List.cons_ne_nil m ls)]
/-- Cut a text at the first separator: what precedes it, and what follows it
if it occurs at all. -/
def cut (sep : α) : List α → List α × Option (List α)
  | [] => ([], none)
  | a :: s =>
      if a = sep then ([], some s) else (a :: (cut sep s).1, (cut sep s).2)

theorem cut_of_notMem {s : List α} (h : sep ∉ s) : cut sep s = (s, none) := by
  induction s with
  | nil => rfl
  | cons a s ih =>
      have ha : a ≠ sep := fun heq => h (by simp [heq])
      have hs : sep ∉ s := fun hm => h (List.mem_cons_of_mem _ hm)
      simp [cut, ha, ih hs]

theorem cut_append_sep {field rest : List α} (h : sep ∉ field) :
    cut sep (field ++ sep :: rest) = (field, some rest) := by
  induction field with
  | nil => simp [cut]
  | cons a s ih =>
      have ha : a ≠ sep := fun heq => h (by simp [heq])
      have hs : sep ∉ s := fun hm => h (List.mem_cons_of_mem _ hm)
      simp [cut, ha, ih hs]

/-- What `cut` returns: a separator-free field, and the text put back
together. -/
theorem cut_spec (sep : α) (s : List α) :
    (sep ∉ s ∧ cut sep s = (s, none)) ∨
    ∃ field rest, sep ∉ field ∧ s = field ++ sep :: rest ∧
      cut sep s = (field, some rest) := by
  by_cases h : sep ∈ s
  · obtain ⟨field, rest, rfl, hfield⟩ := List.eq_append_cons_of_mem h
    exact Or.inr ⟨field, rest, hfield, rfl, cut_append_sep hfield⟩
  · exact Or.inl ⟨h, cut_of_notMem h⟩

theorem head?_dropWhile_ne (b : α) (s : List α) : (s.dropWhile (· == b)).head? ≠ some b := by
  intro heq
  have hnot := List.head?_dropWhile_not (· == b) s
  rw [heq] at hnot
  simp at hnot

/-- Bytes dropped in front of a text are dropped in front of its first field. -/
theorem splitOn_dropWhile {p : α → Bool} (hsep : p sep = false) (s : List α) :
    (s.dropWhile p).splitOn sep = (s.splitOn sep).modifyHead (List.dropWhile p) := by
  induction s with
  | nil => rfl
  | cons b s ih =>
      rw [List.splitOn_cons_eq_if_modifyHead]
      by_cases hb : p b = true
      · have hne : (b == sep) = false := by
          by_contra heq
          have hbsep : b = sep := by simpa using heq
          rw [hbsep, hsep] at hb
          exact absurd hb (by decide)
        have hskip : List.dropWhile p ∘ (b :: ·) = List.dropWhile p := by
          funext field
          exact List.dropWhile_cons_of_pos hb
        rw [List.dropWhile_cons_of_pos hb, ih, hne, if_neg (by decide), List.modifyHead_modifyHead,
          hskip]
      · rw [List.dropWhile_cons_of_neg hb, List.splitOn_cons_eq_if_modifyHead]
        split
        · rfl
        · cases s.splitOn sep with
          | nil => rfl
          | cons field fields =>
              rw [List.modifyHead_cons, List.modifyHead_cons, List.dropWhile_cons_of_neg hb]

/-- A field is part of the text. -/
theorem subset_of_mem_splitOn {s field : List α} (h : field ∈ s.splitOn sep) : field ⊆ s := by
  induction s generalizing field with
  | nil =>
      rw [List.splitOn_nil, List.mem_singleton] at h
      rw [h]
      exact List.Subset.refl []
  | cons b s ih =>
      rw [List.splitOn_cons_eq_if_modifyHead] at h
      split at h
      · rcases List.mem_cons.mp h with rfl | h
        · exact List.nil_subset _
        · exact List.subset_cons_of_subset b (ih h)
      · cases hfields : s.splitOn sep with
        | nil => exact absurd hfields (List.splitOn_ne_nil sep s)
        | cons first fields =>
            rw [hfields, List.modifyHead_cons] at h
            rcases List.mem_cons.mp h with rfl | h
            · exact List.cons_subset_cons b (ih (hfields ▸ List.mem_cons_self ..))
            · exact List.subset_cons_of_subset b (ih (hfields ▸ List.mem_cons_of_mem _ h))

/-- Without an empty field there is no separator at either end and no two of
them in a row. -/
theorem sep_isolated {s : List α} (h : [] ∉ s.splitOn sep) :
    s.head? ≠ some sep ∧ s.getLast? ≠ some sep ∧ ¬ [sep, sep] <:+: s := by
  -- a separator at the start of a text has an empty field in front of it
  have hempty : ∀ t : List α, [] ∈ (sep :: t).splitOn sep := fun t => by
    rw [← List.nil_append (sep :: t), List.splitOn_append_cons_self]
    simp
  refine ⟨fun hhead => h ?_, fun hlast => h ?_, fun hdoubled => h ?_⟩
  · obtain ⟨t, rfl⟩ := List.head?_eq_some_iff.mp hhead
    exact hempty t
  · obtain ⟨t, rfl⟩ := List.getLast?_eq_some_iff.mp hlast
    rw [List.splitOn_append_cons_self]
    simp
  · obtain ⟨t, u, rfl⟩ := hdoubled
    rw [List.append_assoc, List.cons_append, List.splitOn_append_cons_self]
    exact List.mem_append_right _ (hempty u)

variable {σ : Type*}

/-- The loop `while (s) { end = strstr(s, sep); ... s = end ? end+1 : NULL; }`.
The body is told whether it is looking at the last field. -/
def scanLoop (sep : α) (step : σ → List α → Bool → Option σ) :
    Nat → List α → σ → Option σ
  | 0, _, _ => none
  | fuel+1, s, st =>
      match cut sep s with
      | (field, none) => step st field true
      | (field, some rest) =>
          (step st field false).bind (scanLoop sep step fuel rest)

/-- `scanLoop` with as many rounds as a text of this length can need. -/
def scanFields (sep : α) (step : σ → List α → Bool → Option σ)
    (s : List α) (st : σ) : Option σ :=
  scanLoop sep step (s.length + 1) s st

/-- The meaning of the loop: a fold over the fields that treats the last one
apart. -/
def foldFields (step : σ → List α → Bool → Option σ) : List (List α) → σ → Option σ
  | [], st => some st
  | [field], st => step st field true
  | field :: fields, st => (step st field false).bind (foldFields step fields)

omit [DecidableEq α] in
theorem foldFields_cons (step : σ → List α → Bool → Option σ) (field : List α)
    (fields : List (List α)) (st : σ) :
    foldFields step (field :: fields) st =
      (step st field fields.isEmpty).bind (foldFields step fields) := by
  cases fields with
  | nil =>
      rw [foldFields, List.isEmpty_nil]
      cases step st field true <;> rfl
  | cons f fs =>
      rw [foldFields, List.isEmpty_cons]
      simp

/-- **The scan loop ends** after one round for every field and computes the
fold. -/
theorem scanFields_eq_foldFields (sep : α) (step : σ → List α → Bool → Option σ)
    (s : List α) (st : σ) :
    scanFields sep step s st = foldFields step (s.splitOn sep) st := by
  suffices h : ∀ fuel (s : List α) st, s.length < fuel →
      scanLoop sep step fuel s st = foldFields step (s.splitOn sep) st from
    h _ s st (Nat.lt_succ_self _)
  intro fuel
  induction fuel with
  | zero => intro s st hlen; exact absurd hlen (Nat.not_lt_zero _)
  | succ fuel ih =>
      intro s st hlen
      rcases cut_spec sep s with ⟨hnot, hcut⟩ | ⟨field, rest, hfield, rfl, hcut⟩
      · simp [scanLoop, hcut, List.splitOn_eq_singleton hnot, foldFields]
      · have hrest : rest.length < fuel := by
          simp at hlen
          omega
        have hlast : (rest.splitOn sep).isEmpty = false := by
          rw [List.isEmpty_eq_false_iff]
          exact List.splitOn_ne_nil sep rest
        have htail : scanLoop sep step fuel rest = foldFields step (rest.splitOn sep) :=
          funext fun st' => ih rest st' hrest
        rw [scanLoop, hcut, List.splitOn_append_cons_self_of_not_mem hfield,
          foldFields_cons, hlast]
        simp only [htail]

variable {π : Type*}

/-- Read every field, the last one flagged; no result if one has none. -/
def mapFields (piece : List α → Bool → Option π) : List (List α) → Option (List π)
  | [] => some []
  | field :: fields => do
      let p ← piece field fields.isEmpty
      let ps ← mapFields piece fields
      some (p :: ps)

omit [DecidableEq α] in
/-- **Read first, store afterwards.**  A loop that reads each field into some
items and stores these is a reading pass followed by a storing pass. -/
theorem foldFields_eq_mapFields {step : σ → List α → Bool → Option σ}
    {piece : List α → Bool → Option (List π)} {store : σ → π → Option σ}
    (h : ∀ st field last,
      step st field last = (piece field last).bind fun ps => ps.foldlM store st)
    (fields : List (List α)) (st : σ) :
    foldFields step fields st =
      (mapFields piece fields).bind fun pss => pss.flatten.foldlM store st := by
  induction fields generalizing st with
  | nil => rfl
  | cons field fields ih =>
      have hrec : foldFields step fields = fun st => (mapFields piece fields).bind
          fun pss => pss.flatten.foldlM store st := funext ih
      rw [foldFields_cons, h, mapFields, hrec]
      cases piece field fields.isEmpty with
      | none => rfl
      | some ps =>
          rw [Option.bind_some, Option.bind_eq_bind, Option.bind_some]
          cases mapFields piece fields with
          | none => cases ps.foldlM store st <;> rfl
          | some pss =>
              simp only [Option.bind_some, Option.bind_eq_bind, List.flatten_cons,
                List.foldlM_append]

/-- A condition on every field and on whether it is the last one. -/
def AllFields (ok : List α → Bool → Prop) : List (List α) → Prop
  | [] => True
  | field :: fields => ok field fields.isEmpty ∧ AllFields ok fields

instance decidableAllFields (ok : List α → Bool → Prop) [∀ field last, Decidable (ok field last)] :
    ∀ fields, Decidable (AllFields ok fields)
  | [] => inferInstanceAs (Decidable True)
  | field :: fields =>
      have := decidableAllFields ok fields
      inferInstanceAs (Decidable (ok field fields.isEmpty ∧ AllFields ok fields))

omit [DecidableEq α] in
theorem allFields_of_forall {ok : List α → Bool → Prop} {fields : List (List α)}
    (h : ∀ field ∈ fields, ∀ last, ok field last) : AllFields ok fields := by
  induction fields with
  | nil => trivial
  | cons field fields ih =>
      exact ⟨h field (by simp) _, ih fun f hf => h f (List.mem_cons_of_mem _ hf)⟩

omit [DecidableEq α] in
/-- Fields are read one by one: the result exists exactly when every field is
readable. -/
theorem mapFields_eq_some_iff {piece : List α → Bool → Option π}
    {ok : List α → Bool → Prop} {result : List α → π}
    (h : ∀ field last p, piece field last = some p ↔ ok field last ∧ result field = p)
    {fields : List (List α)} {ps : List π} :
    mapFields piece fields = some ps ↔ AllFields ok fields ∧ fields.map result = ps := by
  induction fields generalizing ps with
  | nil => simp [mapFields, AllFields]
  | cons field fields ih =>
      rw [mapFields, AllFields, List.map_cons, Option.bind_eq_bind, Option.bind_eq_some_iff]
      constructor
      · rintro ⟨p, hp, hrest⟩
        obtain ⟨qs, hqs, heq⟩ := Option.bind_eq_some_iff.mp hrest
        obtain ⟨hok, rfl⟩ := (h _ _ _).mp hp
        obtain ⟨hall, rfl⟩ := ih.mp hqs
        exact ⟨⟨hok, hall⟩, Option.some.inj heq⟩
      · rintro ⟨⟨hok, hall⟩, heq⟩
        refine ⟨result field, (h _ _ _).mpr ⟨hok, rfl⟩, ?_⟩
        have hrec := ih.mpr ⟨hall, rfl⟩
        rw [Option.bind_eq_bind, hrec, Option.bind_some, heq]

end Fields

end ByteText
