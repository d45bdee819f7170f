import Atmos.ByteText

/-!
# Letter case and whitespace of header lines

Before a header line is signed, `AtmosUtil_lowercaseheader` lower-cases it up
to the first colon and `AtmosUtil_normalize_whitespace` compacts it in place
with a read index `i` and a write index `j`.

* `normalizeWhitespace_eq` — the in-place loop computes `squeeze`, a recursion
  over the bytes that knows on which side of the first colon it is;
* `squeeze_sublist` — it only ever removes bytes;
* `Interchangeable` — two texts that no prefix can tell apart; the five kinds
  of space edit are instances of it;
* `prefix_squeeze` — a word without spaces, commas and colons starts the
  squeezed line exactly when it starts the line.

The indices are unbounded numbers, so every text has a result here.  In the
source they have 32 bits.  `Indexed.lowercaseFrom_eq` and
`Indexed.lowercaseheaderFrom_eq` say for which texts the functions with such an
index agree with these; the loop over the whitespace is taken up in
`WhitespaceRuns`.
-/

namespace Atmos

open ByteText

namespace AtmosUtil

/-! ## The functions of the source -/

/-- What `AtmosUtil_lowercaseheader` leaves of a line whose colon its index
reaches: no result for a line without one, where the loop runs past the
terminator. -/
def lowercaseheader : CStr → Option CStr
  | [] => none
  | b :: s =>
      if b = colon then some (b :: s)
      else (lowercaseheader s).map (toLower b :: ·)

/-- What `AtmosUtil_lowercase` leaves of a text whose end its index reaches. -/
def lowercase (s : CStr) : CStr := ByteText.lowercase s

/-- `while (i + 1 < sz && header[i + 1] == ' ') i++;` -/
def skipSpaces (header : List UInt8) (sz : Nat) : Nat → Nat → Nat
  | 0, i => i
  | fuel+1, i =>
      if i + 1 < sz ∧ header.getD (i + 1) 0 = space then
        skipSpaces header sz fuel (i + 1)
      else i

/-- The loop of `AtmosUtil_normalize_whitespace`: the buffer and the write
index when the read index has reached `sz`. -/
def normalizeLoop (sz : Nat) :
    Nat → List UInt8 → Nat → Nat → Bool → List UInt8 × Nat
  | 0, header, _, j, _ => (header, j)
  | fuel+1, header, i, j, sepfound =>
      if i < sz then
        let b := header.getD i 0
        if b = space then
          let next := header.getD (i + 1) 0
          if i + 1 = sz ∨ next = space ∨ next = comma ∨
              (sepfound = false ∧ next = colon) then
            normalizeLoop sz fuel header (i + 1) j sepfound
          else
            normalizeLoop sz fuel (header.set j b) (i + 1) (j + 1) sepfound
        else if b = colon ∧ sepfound = false then
          let header := header.set j b
          normalizeLoop sz fuel header (skipSpaces header sz sz i + 1) (j + 1) true
        else
          normalizeLoop sz fuel (header.set j b) (i + 1) (j + 1) sepfound
      else (header, j)

/-- What `AtmosUtil_normalize_whitespace` leaves of a text that its indices
reach the end of. -/
def normalizeWhitespace (header : CStr) : CStr :=
  let (buffer, j) := normalizeLoop header.length header.length header 0 0 false
  buffer.take j

/-! ### With an `int` as index -/

namespace Indexed

/-- `INT_MAX` -/
abbrev intMax : Nat := 2147483647

/-- The loop of `AtmosUtil_lowercaseheader` from index `i` on: no result where
the index overflows or passes the terminator. -/
def lowercaseheaderFrom : Nat → CStr → Option CStr
  | _, [] => none
  | i, b :: s =>
      if b = colon then some (b :: s)
      else if i = intMax then none
      else (lowercaseheaderFrom (i + 1) s).map (toLower b :: ·)

/-- The loop of `AtmosUtil_lowercase` from index `i` on. -/
def lowercaseFrom : Nat → CStr → Option CStr
  | _, [] => some []
  | i, b :: s =>
      if i = intMax then none else (lowercaseFrom (i + 1) s).map (toLower b :: ·)

/-- `AtmosUtil_lowercaseheader` -/
def lowercaseheader (s : CStr) : Option CStr := lowercaseheaderFrom 0 s

/-- `AtmosUtil_lowercase` -/
def lowercase (s : CStr) : Option CStr := lowercaseFrom 0 s

theorem lowercaseFrom_eq {i : Nat} (hi : i ≤ intMax) (s : CStr) :
    lowercaseFrom i s =
      if i + s.length ≤ intMax then some (AtmosUtil.lowercase s) else none := by
  induction s generalizing i with
  | nil =>
      rw [lowercaseFrom, List.length_nil, if_pos (by omega)]
      rfl
  | cons b s ih =>
      have hmax : intMax = 2147483647 := rfl
      rw [lowercaseFrom, List.length_cons]
      by_cases hlast : i = intMax
      · rw [if_pos hlast, if_neg (by omega)]
      · have hcond : i + 1 + s.length ≤ intMax ↔ i + (s.length + 1) ≤ intMax := by omega
        rw [if_neg hlast, ih (by omega), if_congr hcond rfl rfl]
        split <;> rfl

/-- **Lower-casing with an index** gives a result where the index reaches the
terminator. -/
theorem lowercase_eq (s : CStr) :
    lowercase s = if s.length ≤ intMax then some (AtmosUtil.lowercase s) else none := by
  rw [lowercase, lowercaseFrom_eq (Nat.zero_le _), Nat.zero_add]

theorem lowercaseheaderFrom_eq {i : Nat} (hi : i ≤ intMax) (s : CStr) :
    lowercaseheaderFrom i s =
      if i + (s.takeWhile (· ≠ colon)).length ≤ intMax then AtmosUtil.lowercaseheader s
      else none := by
  induction s generalizing i with
  | nil => simp [lowercaseheaderFrom, AtmosUtil.lowercaseheader]
  | cons b s ih =>
      rw [lowercaseheaderFrom, AtmosUtil.lowercaseheader]
      by_cases hcolon : b = colon
      · rw [if_pos hcolon, if_pos hcolon, List.takeWhile_cons_of_neg (by simpa using hcolon),
          List.length_nil, Nat.add_zero, if_pos hi]
      · rw [if_neg hcolon, if_neg hcolon, List.takeWhile_cons_of_pos (by simpa using hcolon),
          List.length_cons]
        by_cases hlast : i = intMax
        · rw [if_pos hlast, if_neg (by omega)]
        · have hcond : i + 1 + (s.takeWhile (· ≠ colon)).length ≤ intMax ↔
              i + ((s.takeWhile (· ≠ colon)).length + 1) ≤ intMax := by omega
          rw [if_neg hlast, ih (by omega), if_congr hcond rfl rfl]
          split <;> rfl

/-- **Lower-casing a name with an index** gives a result where the index reaches
the colon. -/
theorem lowercaseheader_eq (s : CStr) :
    lowercaseheader s =
      if (s.takeWhile (· ≠ colon)).length ≤ intMax then AtmosUtil.lowercaseheader s
      else none := by
  rw [lowercaseheader, lowercaseheaderFrom_eq (Nat.zero_le _), Nat.zero_add]

end Indexed

end AtmosUtil

/-! ## The loop as a recursion over the bytes -/

/-- Where the squeezing is: in the header name, in the gap after the first
colon, or in the value. -/
inductive Phase where
  | name
  | gap
  | value
  deriving DecidableEq

namespace Phase

/-- The phase behind one more byte. -/
def next : Phase → UInt8 → Phase
  | name, b => if b = colon then gap else name
  | gap, b => if b = space then gap else value
  | value, _ => value

/-- Whether a space is dropped, by the text behind it. -/
def drops (p : Phase) : CStr → Bool
  | [] => true
  | b :: _ => p = gap || b = space || b = comma || (p = name && b = colon)

end Phase

/-- Squeeze the spaces out of a text that starts in the given phase. -/
def squeeze : Phase → CStr → CStr
  | _, [] => []
  | p, b :: s =>
      if b = space ∧ p.drops s then squeeze p s else b :: squeeze (p.next b) s

@[simp] theorem squeeze_nil (p : Phase) : squeeze p [] = [] := by
  cases p <;> rfl

/-- A space in the gap is always dropped. -/
theorem drops_gap (s : CStr) : Phase.gap.drops s = true := by
  cases s <;> simp [Phase.drops]

/-- A byte that is not a space is kept. -/
theorem squeeze_cons_of_ne {b : UInt8} (hb : b ≠ space) (p : Phase) (s : CStr) :
    squeeze p (b :: s) = b :: squeeze (p.next b) s := by
  simp [squeeze, hb]

theorem squeeze_space_of_drops {p : Phase} {s : CStr} (h : p.drops s = true) :
    squeeze p (space :: s) = squeeze p s := by
  simp [squeeze, h]

@[simp] theorem next_space (p : Phase) : p.next space = p := by
  cases p <;> rfl

theorem squeeze_space_of_not_drops {p : Phase} {s : CStr} (h : ¬ p.drops s = true) :
    squeeze p (space :: s) = space :: squeeze p s := by
  simp [squeeze, h]

/-- The gap swallows its spaces and then is the value. -/
theorem squeeze_gap (s : CStr) :
    squeeze .gap s = squeeze .value (s.dropWhile (· == space)) := by
  induction s with
  | nil => rfl
  | cons b s ih =>
      by_cases hb : b = space
      · subst hb
        rw [squeeze_space_of_drops (drops_gap s), ih]
        simp
      · rw [squeeze_cons_of_ne hb, List.dropWhile_cons_of_neg (by simpa using hb),
          squeeze_cons_of_ne hb]
        simp [Phase.next, hb]

/-- **Squeezing only removes bytes.** -/
theorem squeeze_sublist (p : Phase) (s : CStr) : (squeeze p s).Sublist s := by
  induction s generalizing p with
  | nil => simp
  | cons b s ih =>
      rw [squeeze]
      split
      · exact (ih p).cons b
      · exact (ih _).cons_cons b

/-- What it removes are spaces. -/
theorem filter_squeeze (p : Phase) (s : CStr) :
    (squeeze p s).filter (· ≠ space) = s.filter (· ≠ space) := by
  induction s generalizing p with
  | nil => rw [squeeze_nil]
  | cons b s ih =>
      rw [squeeze]
      split
      · rename_i hdropped
        rw [List.filter_cons_of_neg (by simp [hdropped.1])]
        exact ih p
      · rw [List.filter_cons, List.filter_cons, ih]

/-! ## The loop computes the recursion -/

/-- The phase a `sepfound` flag stands for. -/
private def phaseOf (sepfound : Bool) : Phase := if sepfound then .value else .name

private theorem take_set_succ {l : List UInt8} {j : Nat} (h : j < l.length) (b : UInt8) :
    (l.set j b).take (j + 1) = l.take j ++ [b] := by
  rw [List.take_succ_eq_append_getElem (by simpa using h), List.take_set_of_le le_rfl]
  simp

/-- Skipping spaces stops before the first byte behind them. -/
theorem skipSpaces_spec {l : List UInt8} (fuel : Nat) {i : Nat} (hi : i < l.length)
    (hfuel : l.length ≤ fuel + i + 1) :
    i ≤ AtmosUtil.skipSpaces l l.length fuel i ∧
      AtmosUtil.skipSpaces l l.length fuel i < l.length ∧
      l.drop (AtmosUtil.skipSpaces l l.length fuel i + 1) =
        (l.drop (i + 1)).dropWhile (· == space) := by
  induction fuel generalizing i with
  | zero =>
      have hend : l.drop (i + 1) = [] := List.drop_of_length_le (by omega)
      exact ⟨le_rfl, hi, by simp [AtmosUtil.skipSpaces, hend]⟩
  | succ fuel ih =>
      rw [AtmosUtil.skipSpaces]
      by_cases hlast : i + 1 < l.length
      · have hget : l.getD (i + 1) 0 = l[i + 1] := by simp [hlast]
        have hdrop := List.drop_eq_getElem_cons hlast
        by_cases hspace : l[i + 1] = space
        · rw [if_pos ⟨hlast, hget.trans hspace⟩]
          obtain ⟨hle, hlt, heq⟩ := ih hlast (by omega)
          refine ⟨by omega, hlt, ?_⟩
          rw [heq, hdrop, hspace]
          simp
        · rw [if_neg fun h => hspace (hget ▸ h.2), hdrop,
            List.dropWhile_cons_of_neg (by simpa using hspace), ← hdrop]
          exact ⟨le_rfl, hi, rfl⟩
      · have hend : l.drop (i + 1) = [] := List.drop_of_length_le (by omega)
        rw [if_neg fun h => hlast h.1, hend]
        exact ⟨le_rfl, hi, rfl⟩

/-- **One run of the loop.**  The write index never passes the read index, so
what is still to be read has not been overwritten. -/
private theorem normalizeLoop_spec {sz : Nat} (fuel : Nat) {i j : Nat}
    {l : List UInt8} (sepfound : Bool) (hlen : l.length = sz) (hji : j ≤ i)
    (hfuel : sz ≤ fuel + i) :
    let out := AtmosUtil.normalizeLoop sz fuel l i j sepfound
    out.1.take out.2 = l.take j ++ squeeze (phaseOf sepfound) (l.drop i) := by
  induction fuel generalizing i j l sepfound with
  | zero =>
      have hend : l.drop i = [] := List.drop_of_length_le (by omega)
      simp [AtmosUtil.normalizeLoop, hend]
  | succ fuel ih =>
      rw [AtmosUtil.normalizeLoop]
      by_cases hi : i < sz
      · have hil : i < l.length := by omega
        have hget : l.getD i 0 = l[i] := by simp [hil]
        have hdrop := List.drop_eq_getElem_cons hil
        -- what a copied byte leaves behind
        have hset : ∀ k, j < k → (l.set j l[i]).drop k = l.drop k := fun k hk =>
          List.drop_set_of_lt hk
        have htake := take_set_succ (l := l) (j := j) (by omega) l[i]
        simp only [if_pos hi, hget]
        by_cases hspace : l[i] = space
        · -- the text behind the space decides whether it is kept
          have hdrops : (phaseOf sepfound).drops (l.drop (i + 1)) = true ↔
              (i + 1 = sz ∨ l.getD (i + 1) 0 = space ∨ l.getD (i + 1) 0 = comma ∨
                (sepfound = false ∧ l.getD (i + 1) 0 = colon)) := by
            by_cases hlast : i + 1 = sz
            · have hend : l.drop (i + 1) = [] := List.drop_of_length_le (by omega)
              rw [hend]
              simp [hlast, Phase.drops]
            · have hnext : i + 1 < l.length := by omega
              rw [List.drop_eq_getElem_cons hnext]
              cases sepfound <;> simp [Phase.drops, phaseOf, hlast, hnext, or_assoc]
          by_cases hd : (phaseOf sepfound).drops (l.drop (i + 1)) = true
          · rw [if_pos hspace, if_pos (hdrops.mp hd)]
            have hrec := ih (i := i + 1) (j := j) (l := l) sepfound
              hlen (by omega) (by omega)
            rw [hrec, hdrop, hspace, squeeze_space_of_drops hd]
          · rw [if_pos hspace, if_neg fun h => hd (hdrops.mpr h)]
            have hrec := ih (i := i + 1) (j := j + 1) (l := l.set j l[i])
              sepfound (by simpa using hlen) (by omega) (by omega)
            rw [hrec, htake, hset _ (by omega), hdrop, hspace,
              squeeze_space_of_not_drops hd, List.append_assoc]
            rfl
        · rw [if_neg hspace]
          by_cases hcolon : l[i] = colon ∧ sepfound = false
          · obtain ⟨hc, rfl⟩ := hcolon
            rw [if_pos ⟨hc, rfl⟩]
            have hlen' : (l.set j l[i]).length = sz := by simpa using hlen
            obtain ⟨hle, hlt, hskip⟩ := skipSpaces_spec (l := l.set j l[i])
              sz (i := i) (by omega) (by omega)
            rw [hlen'] at hle hlt hskip
            have hrec := ih (j := j + 1) (l := l.set j l[i]) true
              (i := AtmosUtil.skipSpaces (l.set j l[i]) sz sz i + 1)
              hlen' (by omega) (by omega)
            rw [hrec, htake, hskip, hset _ (by omega), hdrop,
              squeeze_cons_of_ne hspace]
            have hgap : (phaseOf false).next l[i] = .gap := by simp [phaseOf, Phase.next, hc]
            rw [hgap, squeeze_gap]
            simp [phaseOf]
          · rw [if_neg hcolon]
            have hrec := ih (i := i + 1) (j := j + 1) (l := l.set j l[i])
              sepfound (by simpa using hlen) (by omega) (by omega)
            rw [hrec, htake, hset _ (by omega), hdrop, squeeze_cons_of_ne hspace]
            have hphase : (phaseOf sepfound).next l[i] = phaseOf sepfound := by
              cases sepfound
              · have hc : l[i] ≠ colon := fun hc => hcolon ⟨hc, rfl⟩
                simp [phaseOf, Phase.next, hc]
              · rfl
            rw [hphase]
            simp
      · have hend : l.drop i = [] := List.drop_of_length_le (by omega)
        simp [if_neg hi, hend]

/-- **The in-place loop squeezes the line.** -/
theorem normalizeWhitespace_eq (header : CStr) :
    AtmosUtil.normalizeWhitespace header = squeeze .name header := by
  have h := normalizeLoop_spec header.length (i := 0) (j := 0) (l := header) false rfl
    le_rfl (by omega)
  simpa [AtmosUtil.normalizeWhitespace, phaseOf] using h

/-! ## Texts that squeeze alike -/

/-- The phase behind a text. -/
def Phase.after (p : Phase) (s : CStr) : Phase := s.foldl Phase.next p

theorem after_name {s : CStr} (h : colon ∉ s) : Phase.name.after s = .name := by
  induction s with
  | nil => rfl
  | cons b s ih =>
      have hb : b ≠ colon := fun heq => h (by simp [heq])
      have hs : colon ∉ s := fun hm => h (List.mem_cons_of_mem _ hm)
      have hnext : Phase.name.next b = .name := by simp [Phase.next, hb]
      rw [Phase.after, List.foldl_cons, hnext]
      exact ih hs

theorem after_header_name {name : CStr} (h : colon ∉ name) :
    Phase.name.after (name ++ [colon]) = .gap := by
  have hname := after_name h
  rw [Phase.after] at hname ⊢
  rw [List.foldl_append, hname]
  rfl

/-- Two texts that squeeze alike, also behind one more space. -/
def Interchangeable (p : Phase) (u v : CStr) : Prop :=
  squeeze p u = squeeze p v ∧ squeeze p (space :: u) = squeeze p (space :: v)

theorem Interchangeable.cons {p : Phase} {u v : CStr} (b : UInt8)
    (h : Interchangeable (p.next b) u v) : Interchangeable p (b :: u) (b :: v) := by
  obtain ⟨hsame, hspace⟩ := h
  by_cases hb : b = space
  · subst hb
    rw [next_space] at hspace
    have hrun : ∀ w, squeeze p (space :: space :: w) = squeeze p (space :: w) := fun w =>
      squeeze_space_of_drops (by simp [Phase.drops])
    refine ⟨hspace, ?_⟩
    rw [hrun u, hrun v]
    exact hspace
  · have hcons : squeeze p (b :: u) = squeeze p (b :: v) := by
      rw [squeeze_cons_of_ne hb, squeeze_cons_of_ne hb, hsame]
    refine ⟨hcons, ?_⟩
    by_cases hd : p.drops (b :: u) = true
    · rw [squeeze_space_of_drops hd, squeeze_space_of_drops (s := b :: v) hd, hcons]
    · rw [squeeze_space_of_not_drops hd, squeeze_space_of_not_drops (s := b :: v) hd,
        hcons]

/-- **No prefix tells them apart.** -/
theorem Interchangeable.append {p : Phase} {u v : CStr} (pre : CStr)
    (h : Interchangeable (p.after pre) u v) :
    Interchangeable p (pre ++ u) (pre ++ v) := by
  induction pre generalizing p with
  | nil => exact h
  | cons b pre ih => exact Interchangeable.cons b (ih h)

/-- Where the next byte lets a space drop, any number of them drops. -/
theorem squeeze_spaces {p : Phase} {s : CStr} (h : p.drops s = true) (n : Nat) :
    squeeze p (List.replicate n space ++ s) = squeeze p s := by
  induction n with
  | zero => rfl
  | succ n ih =>
      have hd : p.drops (List.replicate n space ++ s) = true := by
        cases n with
        | zero => exact h
        | succ n => simp [List.replicate_succ, Phase.drops]
      rw [List.replicate_succ, List.cons_append, squeeze_space_of_drops hd, ih]

/-- Runs of any two lengths are interchangeable there. -/
theorem interchangeable_spaces {p : Phase} {s : CStr} (h : p.drops s = true)
    (m n : Nat) :
    Interchangeable p (List.replicate m space ++ s) (List.replicate n space ++ s) := by
  have hrun : ∀ k, squeeze p (space :: (List.replicate k space ++ s)) = squeeze p s :=
    fun k => squeeze_spaces h (k + 1)
  exact ⟨by rw [squeeze_spaces h, squeeze_spaces h], by rw [hrun m, hrun n]⟩

/-! ## The first word of a line -/

/-- Behind a dropped space the squeezed text does not start with a word. -/
private theorem head_of_drops {s : CStr} (h : Phase.name.drops s = true) :
    squeeze .name s = [] ∨ ∃ b t, squeeze .name s = b :: t ∧
      (b = space ∨ b = comma ∨ b = colon) := by
  induction s with
  | nil => exact Or.inl rfl
  | cons b s ih =>
      by_cases hb : b = space
      · subst hb
        by_cases hd : Phase.name.drops s = true
        · rw [squeeze_space_of_drops hd]
          exact ih hd
        · rw [squeeze_space_of_not_drops hd]
          exact Or.inr ⟨_, _, rfl, Or.inl rfl⟩
      · rw [squeeze_cons_of_ne hb]
        refine Or.inr ⟨_, _, rfl, ?_⟩
        simpa [Phase.drops, hb] using h

/-- A text without spaces, commas and colons. -/
def IsWord (w : CStr) : Prop := ∀ b ∈ w, b ≠ space ∧ b ≠ comma ∧ b ≠ colon

instance (w : CStr) : Decidable (IsWord w) :=
  List.decidableBAll (fun b => b ≠ space ∧ b ≠ comma ∧ b ≠ colon) w

/-- **The first word is untouched.** -/
theorem prefix_squeeze {w : CStr} (hw : IsWord w) (s : CStr) :
    w <+: squeeze .name s ↔ w <+: s := by
  induction w generalizing s with
  | nil => simp
  | cons a w ih =>
      obtain ⟨hspace, hcomma, hcolon⟩ := hw a (by simp)
      have htail : IsWord w := fun b hb => hw b (List.mem_cons_of_mem _ hb)
      cases s with
      | nil => simp
      | cons b s =>
          by_cases hb : b = space
          · subst hb
            have hright : ¬ a :: w <+: space :: s := fun h =>
              hspace (List.cons_prefix_cons.mp h).1
            refine iff_of_false ?_ hright
            intro h
            by_cases hd : Phase.name.drops s = true
            · rw [squeeze_space_of_drops hd] at h
              rcases head_of_drops hd with hnil | ⟨c, t, hc, hspecial⟩
              · rw [hnil] at h
                simp at h
              · rw [hc] at h
                obtain ⟨rfl, -⟩ := List.cons_prefix_cons.mp h
                rcases hspecial with hs | hs | hs
                · exact hspace hs
                · exact hcomma hs
                · exact hcolon hs
            · rw [squeeze_space_of_not_drops hd] at h
              exact hspace (List.cons_prefix_cons.mp h).1
          · rw [squeeze_cons_of_ne hb, List.cons_prefix_cons, List.cons_prefix_cons]
            refine and_congr_right fun heq => ?_
            have hnext : Phase.name.next b = .name := by
              rw [← heq]
              simp [Phase.next, hcolon]
            rw [hnext]
            exact ih htail s

/-- A word as a whole is untouched. -/
theorem squeeze_word {w : CStr} (hw : IsWord w) (s : CStr) :
    squeeze .name (w ++ s) = w ++ squeeze .name s := by
  induction w with
  | nil => rfl
  | cons b w ih =>
      obtain ⟨hspace, -, hcolon⟩ := hw b (List.mem_cons_self ..)
      have htail : IsWord w := fun c hc => hw c (List.mem_cons_of_mem b hc)
      have hnext : Phase.name.next b = .name := by simp [Phase.next, hcolon]
      rw [List.cons_append, squeeze_cons_of_ne hspace, hnext, ih htail, List.cons_append]

/-- So is the name of a header line. -/
theorem squeeze_line {name : CStr} (hname : IsWord name) (value : CStr) :
    squeeze .name (name ++ colon :: value) = name ++ colon :: squeeze .gap value := by
  have hcolon : colon ≠ space := by decide
  rw [squeeze_word hname, squeeze_cons_of_ne hcolon]
  rfl

/-! ## Lower-casing the name -/

/-- The bytes `AtmosUtil_lowercaseheader` leaves, for any text. -/
def lowerName : CStr → CStr
  | [] => []
  | b :: s => if b = colon then b :: s else toLower b :: lowerName s

theorem lowercaseheader_eq (s : CStr) :
    AtmosUtil.lowercaseheader s = if colon ∈ s then some (lowerName s) else none := by
  induction s with
  | nil => rfl
  | cons b s ih =>
      by_cases hb : b = colon
      · simp [AtmosUtil.lowercaseheader, lowerName, hb]
      · have hmem : colon ∈ b :: s ↔ colon ∈ s := by simp [Ne.symm hb]
        by_cases hs : colon ∈ s
        · simp [AtmosUtil.lowercaseheader, lowerName, hb, ih, hs]
        · simp [AtmosUtil.lowercaseheader, hb, ih, hs, Ne.symm hb]

/-- Behind the first colon nothing changes. -/
theorem lowerName_append_of_mem {s : CStr} (h : colon ∈ s) (t : CStr) :
    lowerName (s ++ t) = lowerName s ++ t := by
  induction s with
  | nil => cases h
  | cons b s ih =>
      by_cases hb : b = colon
      · simp [lowerName, hb]
      · have hs : colon ∈ s := by
          rcases List.mem_cons.mp h with heq | hs
          · exact absurd heq.symm hb
          · exact hs
        simp [lowerName, hb, ih hs]

/-- Before the first colon every byte is lower-cased. -/
theorem lowerName_append_of_notMem {s : CStr} (h : colon ∉ s) (t : CStr) :
    lowerName (s ++ t) = ByteText.lowercase s ++ lowerName t := by
  induction s with
  | nil => rfl
  | cons b s ih =>
      have hb : b ≠ colon := fun heq => h (by simp [heq])
      have hs : colon ∉ s := fun hm => h (List.mem_cons_of_mem _ hm)
      simp [lowerName, hb, ih hs]

theorem lowerName_line {name : CStr} (h : colon ∉ name) (value : CStr) :
    lowerName (name ++ colon :: value) = ByteText.lowercase name ++ colon :: value := by
  rw [lowerName_append_of_notMem h]
  simp [lowerName]

/-- A newline-free line stays newline-free. -/
theorem length_lowerName (s : CStr) : (lowerName s).length = s.length := by
  induction s with
  | nil => rfl
  | cons b s ih =>
      rw [lowerName]
      split
      · rfl
      · rw [List.length_cons, ih, List.length_cons]

theorem nul_mem_lowerName {s : CStr} : 0 ∈ lowerName s ↔ 0 ∈ s := by
  have hnul : ∀ b : UInt8, 0 = toLower b ↔ 0 = b := fun b => by
    rw [eq_comm, toLower_eq_iff (by decide) (by decide), eq_comm]
  induction s with
  | nil => simp [lowerName]
  | cons b s ih =>
      by_cases hb : b = colon
      · simp [lowerName, hb]
      · simp [lowerName, hb, ih, hnul]

theorem newline_mem_lowerName {s : CStr} : newline ∈ lowerName s ↔ newline ∈ s := by
  induction s with
  | nil => rfl
  | cons b s ih =>
      by_cases hb : b = colon
      · simp [lowerName, hb]
      · have hnl : newline = toLower b ↔ newline = b := by
          rw [eq_comm, toLower_eq_newline, eq_comm]
        simp [lowerName, hb, ih, hnl]

/-- A word at the start of a text is lower-cased with it. -/
theorem prefix_lowerName {w : CStr} (hw : IsWord w) (s : CStr) :
    w <+: lowerName s ↔ w <+: ByteText.lowercase s := by
  induction w generalizing s with
  | nil => simp
  | cons a w ih =>
      have htail : IsWord w := fun b hb => hw b (List.mem_cons_of_mem _ hb)
      have hcolon : a ≠ colon := (hw a (by simp)).2.2
      cases s with
      | nil => simp [lowerName]
      | cons b s =>
          by_cases hb : b = colon
          · subst hb
            have hlow : toLower colon = colon := by decide
            have hleft : ¬ a :: w <+: lowerName (colon :: s) := by
              intro h
              rw [lowerName, if_pos rfl] at h
              exact hcolon (List.cons_prefix_cons.mp h).1
            refine iff_of_false hleft fun h => ?_
            rw [lowercase_cons, hlow] at h
            exact hcolon (List.cons_prefix_cons.mp h).1
          · rw [lowerName, if_neg hb, lowercase_cons, List.cons_prefix_cons,
              List.cons_prefix_cons, ih htail s]

end Atmos
