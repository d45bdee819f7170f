import Mathlib.Data.List.SplitBy
import Mathlib.Logic.Relation
import Atmos.FixedMemory
import Atmos.NormalizeWhitespace

/-!
# Whitespace normalisation, run by run

`AtmosUtil_normalize_whitespace` rewrites a header line in the memory it
stands in.  `normalizeInPlace` is the function on that memory, with the 32-bit
indices of the source; `normalised` says what it is for: a line is cut into
its maximal runs of spaces and the words between them, every word is kept, and
a run is deleted or becomes one space by the texts on its two sides.

* `Normalization.Holds` — what is true of the locals at the head of the loop;
* `Normalization.run_eq` — the loop over the memory computes the loop over the
  text, for strings shorter than the range of the indices;
* `squeeze_eq_normalised` — squeezing spaces byte by byte treats every run as
  it should be;
* `Indexed.normalizeWhitespace_eq` — for longer strings it does not end;
* `normalize_whitespace_runs` — the function itself: its result, its indices
  and a second application.
-/

namespace Atmos

open ByteText FixedMemory Relation

namespace AtmosUtil

/-! ## The function on memory -/

/-- The locals of `AtmosUtil_normalize_whitespace` at the head of its loop,
with the memory that `header` points to. -/
structure Normalization where
  header : List UInt8
  i : UInt32
  j : UInt32
  sepfound : Bool

/-- `while (i + 1 < sz && header[i + 1] == ' ') i++;` with an `unsigned int i` -/
def skipSpaces32 (header : List UInt8) (sz : Nat) : Nat → UInt32 → UInt32
  | 0, i => i
  | fuel+1, i =>
      if (i + 1).toNat < sz ∧ header.getD (i + 1).toNat 0 = space then
        skipSpaces32 header sz fuel (i + 1)
      else i

namespace Normalization

/-- `header[j++] = b` -/
def put (s : Normalization) (b : UInt8) : Normalization :=
  { s with header := s.header.set s.j.toNat b, j := s.j + 1 }

/-- The body of the loop, `none` where its condition `i < sz` fails. -/
def step (sz : Nat) (s : Normalization) : Option Normalization :=
  if s.i.toNat < sz then
    let b := s.header.getD s.i.toNat 0
    if b = space then
      let next := s.header.getD (s.i + 1).toNat 0
      if (s.i + 1).toNat = sz ∨ next = space ∨ next = comma ∨
          (s.sepfound = false ∧ next = colon) then
        some { s with i := s.i + 1 }
      else some { s.put b with i := s.i + 1 }
    else if b = colon ∧ s.sepfound = false then
      some { s.put b with
        sepfound := true, i := skipSpaces32 (s.put b).header sz sz s.i + 1 }
    else some { s.put b with i := s.i + 1 }
  else none

/-- The loop: no result if its condition still holds after that many rounds. -/
def run (sz : Nat) : Nat → Normalization → Option Normalization
  | 0, _ => none
  | rounds+1, s => (s.step sz).elim (some s) (run sz rounds)

/-- The locals before the first round. -/
def start (memory : List UInt8) : Normalization := ⟨memory, 0, 0, false⟩

/-- The second is reached from the first by rounds of the loop. -/
def Reaches (sz : Nat) : Normalization → Normalization → Prop :=
  ReflTransGen fun s t => s.step sz = some t

end Normalization

/-- `AtmosUtil_normalize_whitespace` on the memory at `header`: no result
where `strlen` finds no terminator or the loop does not end. -/
def normalizeInPlace (memory : List UInt8) : Option (List UInt8) := do
  let sz := (← readCStr memory).length
  let s ← (Normalization.start memory).run sz (sz + 1)
  return s.header.set s.j.toNat 0

end AtmosUtil

/-! ## The runs of a line -/

/-- A text that ends in its first colon. -/
def EndsInFirstColon (s : CStr) : Prop := s.getLast? = some colon ∧ colon ∉ s.dropLast

instance (s : CStr) : Decidable (EndsInFirstColon s) := instDecidableAnd

/-- A run of spaces between these two texts is deleted. -/
def RunDeleted (before after : CStr) : Prop :=
  EndsInFirstColon before ∨ after = [] ∨ after.head? = some comma ∨
    (after.head? = some colon ∧ colon ∉ before)

instance (before after : CStr) : Decidable (RunDeleted before after) := instDecidableOr

/-- The maximal runs of spaces of a line and the words between them. -/
def blocks (s : CStr) : List CStr := s.splitBy fun a b => (a == space) == (b == space)

/-- The blocks behind a text, with every run deleted or made one space. -/
def normaliseBlocks : CStr → List CStr → CStr
  | _, [] => []
  | before, block :: rest =>
      (if space ∈ block then
        if RunDeleted before rest.flatten then [] else [space]
      else block) ++ normaliseBlocks (before ++ block) rest

/-- The line with every maximal run of spaces deleted or made one space. -/
def normalised (s : CStr) : CStr := normaliseBlocks [] (blocks s)

example : normalised (bytes " a b  c :  d :e , f  ") = bytes " a b c:d :e, f" := by decide

/-! ## Squeezing treats every run as it should be -/

theorem after_append (p : Phase) (s t : CStr) : p.after (s ++ t) = (p.after s).after t :=
  List.foldl_append

theorem after_concat (s : CStr) (b : UInt8) :
    Phase.name.after (s ++ [b]) = (Phase.name.after s).next b :=
  after_append .name s [b]

/-- Spaces do not change the phase. -/
theorem after_spaces (p : Phase) (n : Nat) : p.after (List.replicate n space) = p := by
  induction n with
  | zero => rfl
  | succ n ih =>
      rw [List.replicate_succ, Phase.after, List.foldl_cons, next_space]
      exact ih

/-- The name lasts up to the first colon. -/
theorem after_eq_name {s : CStr} : Phase.name.after s = .name ↔ colon ∉ s := by
  refine ⟨fun h => ?_, after_name⟩
  induction s using List.reverseRecOn with
  | nil => simp
  | append_singleton s b ih =>
      rw [after_concat] at h
      cases hs : Phase.name.after s with
      | name =>
          rw [hs] at h
          have hb : b ≠ colon := by
            rintro rfl
            cases h
          simpa [Ne.symm hb] using ih hs
      | gap =>
          rw [hs, Phase.next] at h
          split at h <;> cases h
      | value =>
          rw [hs] at h
          cases h

/-- The gap starts behind the first colon. -/
theorem after_eq_gap {s : CStr} (hlast : s.getLast? ≠ some space) :
    Phase.name.after s = .gap ↔ EndsInFirstColon s := by
  induction s using List.reverseRecOn with
  | nil => simp [Phase.after, EndsInFirstColon]
  | append_singleton s b _ =>
      have hb : b ≠ space := by simpa using hlast
      have hends : EndsInFirstColon (s ++ [b]) ↔ b = colon ∧ Phase.name.after s = .name := by
        simp [EndsInFirstColon, after_eq_name]
      rw [after_concat, hends]
      cases Phase.name.after s with
      | name => by_cases hcolon : b = colon <;> simp [Phase.next, hcolon]
      | gap => simp [Phase.next, hb]
      | value => simp [Phase.next]

/-- **A run is dropped exactly where it is to be deleted.** -/
theorem drops_iff_runDeleted {before after : CStr} (hbefore : before.getLast? ≠ some space)
    (hafter : after.head? ≠ some space) :
    (Phase.name.after before).drops after = true ↔ RunDeleted before after := by
  have hgap := after_eq_gap hbefore
  have hname := @after_eq_name before
  cases after with
  | nil => simp [Phase.drops, RunDeleted]
  | cons b after =>
      have hb : b ≠ space := by simpa using hafter
      simp [Phase.drops, RunDeleted, hb, hgap, hname, or_assoc, and_comm]

/-- A word is kept as it is. -/
theorem squeeze_word_append {word : CStr} (hword : space ∉ word) (p : Phase) (s : CStr) :
    squeeze p (word ++ s) = word ++ squeeze (p.after word) s := by
  induction word generalizing p with
  | nil => rfl
  | cons b word ih =>
      have hb : b ≠ space := fun heq => hword (by simp [heq])
      have hrest : space ∉ word := fun hmem => hword (List.mem_cons_of_mem _ hmem)
      rw [List.cons_append, squeeze_cons_of_ne hb, ih hrest]
      rfl

/-- A run is dropped as a whole or becomes one space. -/
theorem squeeze_run (p : Phase) (s : CStr) (n : Nat) :
    squeeze p (List.replicate (n + 1) space ++ s) =
      (if p.drops s = true then [] else [space]) ++ squeeze p s := by
  by_cases hdrops : p.drops s = true
  · rw [if_pos hdrops, squeeze_spaces hdrops]
    rfl
  · rw [if_neg hdrops]
    induction n with
    | zero => exact squeeze_space_of_not_drops hdrops
    | succ n ih =>
        have hnext : p.drops (List.replicate (n + 1) space ++ s) = true := by
          simp [List.replicate_succ, Phase.drops]
        rw [List.replicate_succ, List.cons_append, squeeze_space_of_drops hnext, ih]

/-- A run of spaces, or a word. -/
def IsBlock (block : CStr) : Prop :=
  (∃ n, block = List.replicate (n + 1) space) ∨ (block ≠ [] ∧ space ∉ block)

/-- All bytes of a block are of one kind. -/
theorem isBlock_of_isChain {block : CStr} (hne : block ≠ [])
    (hchain : block.IsChain fun a b => ((a == space) == (b == space)) = true) :
    IsBlock block := by
  have hkind : ∀ b ∈ block, (b == space) = (block.head hne == space) := by
    cases block with
    | nil => exact absurd rfl hne
    | cons a block =>
        intro b hb
        induction block generalizing a with
        | nil =>
            rw [List.mem_singleton.mp hb]
            rfl
        | cons c block ih =>
            obtain ⟨hac, hrest⟩ := List.isChain_cons_cons.mp hchain
            have hca : (a == space) = (c == space) := by simpa using hac
            rcases List.mem_cons.mp hb with rfl | hb
            · rfl
            · exact (ih c (by simp) hrest hb).trans hca.symm
  by_cases hspace : block.head hne = space
  · refine Or.inl ⟨block.length - 1, ?_⟩
    have hlength : 0 < block.length := List.length_pos_iff.mpr hne
    rw [Nat.sub_add_cancel hlength]
    exact List.eq_replicate_of_mem fun b hb => by simpa [hspace] using hkind b hb
  · refine Or.inr ⟨hne, fun hmem => hspace ?_⟩
    have h := hkind space hmem
    simpa using h.symm

/-- Runs and words alternate. -/
def Alternate (a b : CStr) : Prop := ¬ (a.getLast? = some space ↔ b.head? = some space)

theorem blocks_alternate (s : CStr) : (blocks s).IsChain Alternate := by
  refine (List.isChain_getLast_head_splitBy _ s).imp ?_
  rintro a b ⟨ha, hb, hkinds⟩
  rw [Alternate, List.getLast?_eq_some_getLast ha, List.head?_eq_some_head hb]
  simpa [beq_eq_beq] using hkinds

theorem isBlock_of_mem_blocks {s block : CStr} (h : block ∈ blocks s) : IsBlock block :=
  isBlock_of_isChain (List.ne_nil_of_mem_splitBy h) (List.isChain_of_mem_splitBy h)

/-- **Block after block.**  A run is judged by the text in front of it, which
does not end in a space, and by the blocks behind it. -/
theorem squeeze_blocks {bs : List CStr} (hblocks : ∀ block ∈ bs, IsBlock block)
    (hchain : bs.IsChain Alternate) {before : CStr}
    (hbefore : ∀ block ∈ bs.head?, Alternate before block ∨ before = []) :
    squeeze (Phase.name.after before) bs.flatten = normaliseBlocks before bs := by
  induction bs generalizing before with
  | nil => simp [normaliseBlocks]
  | cons block bs ih =>
      have hblock := hblocks block List.mem_cons_self
      have hne : block ≠ [] := by
        rcases hblock with ⟨n, rfl⟩ | ⟨hne, -⟩
        · simp
        · exact hne
      obtain ⟨hnext, hrest⟩ := List.isChain_cons.mp hchain
      -- the blocks behind this one, in front of which it now stands
      have hih := @ih (fun b hb => hblocks b (List.mem_cons_of_mem _ hb)) hrest (before ++ block)
        (fun next hmem => Or.inl (by
          rw [Alternate, List.getLast?_append_of_ne_nil _ hne]
          exact hnext next hmem))
      rw [after_append] at hih
      rw [List.flatten_cons, normaliseBlocks]
      rcases hblock with ⟨n, rfl⟩ | ⟨-, hword⟩
      · have hrun : (List.replicate (n + 1) space).getLast? = some space := by
          rw [List.getLast?_replicate, if_neg (Nat.succ_ne_zero n)]
        have hlast : before.getLast? ≠ some space := by
          rcases hbefore _ rfl with halternate | rfl
          · intro h
            exact halternate (iff_of_true h (by simp [List.replicate_succ]))
          · simp
        have hhead : bs.flatten.head? ≠ some space := by
          cases bs with
          | nil => simp
          | cons next bs =>
              have hnextne : next ≠ [] := by
                rcases hblocks next (by simp) with ⟨k, rfl⟩ | ⟨hne', -⟩
                · simp
                · exact hne'
              rw [List.flatten_cons, List.head?_append_of_ne_nil _ hnextne]
              exact fun h => hnext next rfl (iff_of_true hrun h)
        have hspace : space ∈ List.replicate (n + 1) space := by simp
        rw [after_spaces] at hih
        rw [squeeze_run, hih, if_pos hspace, if_congr (drops_iff_runDeleted hlast hhead) rfl rfl]
      · rw [squeeze_word_append hword, if_neg hword, hih]

/-- **Squeezing byte by byte treats every run as it should be.** -/
theorem squeeze_eq_normalised (s : CStr) : squeeze .name s = normalised s := by
  have h := @squeeze_blocks (blocks s) (fun _ => isBlock_of_mem_blocks) (blocks_alternate s) []
    (fun _ _ => Or.inr rfl)
  rwa [blocks, List.flatten_splitBy] at h

/-- Nothing is left to squeeze. -/
theorem squeeze_squeeze (p : Phase) (s : CStr) : squeeze p (squeeze p s) = squeeze p s := by
  induction s generalizing p with
  | nil => rw [squeeze_nil, squeeze_nil]
  | cons b s ih =>
      by_cases hb : b = space
      · subst hb
        by_cases hdrops : p.drops s = true
        · rw [squeeze_space_of_drops hdrops, ih]
        · -- the byte behind a kept space is kept, so the space is kept again
          have hkept : ¬ p.drops (squeeze p s) = true := by
            cases s with
            | nil => exact absurd rfl hdrops
            | cons c s =>
                have hc : c ≠ space := by
                  rintro rfl
                  simp [Phase.drops] at hdrops
                rw [squeeze_cons_of_ne hc]
                exact hdrops
          rw [squeeze_space_of_not_drops hdrops, squeeze_space_of_not_drops hkept, ih]
      · rw [squeeze_cons_of_ne hb, squeeze_cons_of_ne hb, ih]

/-! ## The loop over the memory computes the loop over the text -/

/-- An index below a string's end has a successor. -/
theorem toNat_add_one {i : UInt32} {sz : Nat} (hi : i.toNat < sz) (hsz : sz < UInt32.size) :
    (i + 1).toNat = i.toNat + 1 := by
  have hsize : UInt32.size = 4294967296 := rfl
  have hone : (1 : UInt32).toNat = 1 := rfl
  rw [UInt32.toNat_add, hone]
  omega

/-- A read up to the terminator does not see what is behind it. -/
theorem getD_terminated {l rest : List UInt8} {k : Nat} (hk : k ≤ l.length) :
    (l ++ 0 :: rest).getD k 0 = l.getD k 0 := by
  rcases Nat.lt_or_eq_of_le hk with hlt | rfl
  · rw [List.getD_eq_getElem?_getD, List.getD_eq_getElem?_getD, List.getElem?_append_left hlt]
  · simp

theorem toNat_skipSpaces32 {l rest : List UInt8} {sz : Nat} (hlength : l.length = sz)
    (hsz : sz < UInt32.size) (fuel : Nat) {i : UInt32} (hi : i.toNat < sz) :
    (AtmosUtil.skipSpaces32 (l ++ 0 :: rest) sz fuel i).toNat =
      AtmosUtil.skipSpaces l sz fuel i.toNat := by
  induction fuel generalizing i with
  | zero => rfl
  | succ fuel ih =>
      have hnext := toNat_add_one hi hsz
      rw [AtmosUtil.skipSpaces32, AtmosUtil.skipSpaces, hnext,
        getD_terminated (by omega : i.toNat + 1 ≤ l.length)]
      by_cases hspace : i.toNat + 1 < sz ∧ l.getD (i.toNat + 1) 0 = space
      · rw [if_pos hspace, if_pos hspace, ih (by omega), hnext]
      · rw [if_neg hspace, if_neg hspace]

namespace AtmosUtil.Normalization

/-- The memory behind the locals holds a text of `sz` bytes, its terminator
and `rest`, and the write index has not passed the read index. -/
structure Holds (sz : Nat) (rest l : List UInt8) (s : Normalization) : Prop where
  header : s.header = l ++ 0 :: rest
  length : l.length = sz
  read : s.i.toNat ≤ sz
  write : s.j ≤ s.i

variable {sz : Nat} {rest l : List UInt8} {s : Normalization}

theorem Holds.put (hs : s.Holds sz rest l) (hi : s.i.toNat < sz) (b : UInt8) :
    (s.put b).header = l.set s.j.toNat b ++ 0 :: rest := by
  have hj : s.j.toNat < l.length := by
    have hwrite := UInt32.le_iff_toNat_le.mp hs.write
    have hlength := hs.length
    omega
  rw [Normalization.put, hs.header, List.set_append_left _ _ hj]

theorem Holds.of_toNat {i j : Nat} (hheader : s.header = l ++ 0 :: rest)
    (hlength : l.length = sz) (hi : s.i.toNat = i) (hj : s.j.toNat = j) (hread : i ≤ sz)
    (hwrite : j ≤ i) : s.Holds sz rest l where
  header := hheader
  length := hlength
  read := hi ▸ hread
  write := UInt32.le_iff_toNat_le.mpr (hi ▸ hj ▸ hwrite)

/-- **One round.**  Below the end of the text it is a round of the loop over
the text, and the read index moves. -/
theorem Holds.step (hs : s.Holds sz rest l) (hsz : sz < UInt32.size) (hi : s.i.toNat < sz) :
    ∃ t l', s.step sz = some t ∧ t.Holds sz rest l' ∧ s.i.toNat < t.i.toNat ∧
      ∀ rounds, normalizeLoop sz (rounds + 1) l s.i.toNat s.j.toNat s.sepfound =
        normalizeLoop sz rounds l' t.i.toNat t.j.toNat t.sepfound := by
  have hlength := hs.length
  have hwrite : s.j.toNat ≤ s.i.toNat := UInt32.le_iff_toNat_le.mp hs.write
  have hnext := toNat_add_one hi hsz
  have hput : (s.j + 1).toNat = s.j.toNat + 1 := toNat_add_one (by omega) hsz
  have hbyte : s.header.getD s.i.toNat 0 = l.getD s.i.toNat 0 := by
    rw [hs.header, getD_terminated (by omega)]
  have hlook : s.header.getD (s.i.toNat + 1) 0 = l.getD (s.i.toNat + 1) 0 := by
    rw [hs.header, getD_terminated (by omega)]
  have hmemory := hs.put hi (l.getD s.i.toNat 0)
  have hset : (l.set s.j.toNat (l.getD s.i.toNat 0)).length = sz := by
    rw [List.length_set, hlength]
  rw [Normalization.step, if_pos hi]
  simp only [hbyte, hlook, hnext, normalizeLoop, if_pos hi]
  by_cases hspace : l.getD s.i.toNat 0 = space
  · by_cases hdrop : s.i.toNat + 1 = sz ∨ l.getD (s.i.toNat + 1) 0 = space ∨
        l.getD (s.i.toNat + 1) 0 = comma ∨
        (s.sepfound = false ∧ l.getD (s.i.toNat + 1) 0 = colon)
    · -- a dropped space
      simp only [if_pos hspace, if_pos hdrop]
      refine ⟨_, l, rfl, .of_toNat (j := s.j.toNat) hs.header hlength hnext rfl (by omega)
        hwrite.step,
        Nat.lt_of_lt_of_eq (Nat.lt_succ_self _) hnext.symm, fun rounds => ?_⟩
      rw [hnext]
    · -- a space that is kept
      simp only [if_pos hspace, if_neg hdrop]
      refine ⟨_, _, rfl, .of_toNat hmemory hset hnext hput (by omega) (by omega),
        Nat.lt_of_lt_of_eq (Nat.lt_succ_self _) hnext.symm, fun rounds => ?_⟩
      rw [hnext]
      exact congrArg (normalizeLoop sz rounds _ _ · _) hput.symm
  · by_cases hcolon : l.getD s.i.toNat 0 = colon ∧ s.sepfound = false
    · -- the first colon: the inner loop moves the read index on
      have hskip := @toNat_skipSpaces32 _ rest _ hset hsz sz _ hi
      obtain ⟨hle, hlt, -⟩ := skipSpaces_spec (l := l.set s.j.toNat (l.getD s.i.toNat 0)) sz
        (i := s.i.toNat) (by omega) (by omega)
      rw [hset, ← hskip] at hle hlt
      have hstop := toNat_add_one hlt hsz
      simp only [if_neg hspace, if_pos hcolon, hmemory]
      refine ⟨_, _, rfl, .of_toNat rfl hset hstop hput (by omega) (by omega),
        Nat.lt_of_lt_of_eq (Nat.lt_succ_of_le hle) hstop.symm, fun rounds => ?_⟩
      rw [hstop, hskip]
      exact congrArg (normalizeLoop sz rounds _ _ · _) hput.symm
    · -- any other byte is copied
      simp only [if_neg hspace, if_neg hcolon]
      refine ⟨_, _, rfl, .of_toNat hmemory hset hnext hput (by omega) (by omega),
        Nat.lt_of_lt_of_eq (Nat.lt_succ_self _) hnext.symm, fun rounds => ?_⟩
      rw [hnext]
      exact congrArg (normalizeLoop sz rounds _ _ · _) hput.symm

/-- **The whole loop** over the text, with the memory behind it untouched. -/
theorem Holds.run (hs : s.Holds sz rest l) (hsz : sz < UInt32.size) {rounds : Nat}
    (hrounds : sz ≤ rounds + s.i.toNat) :
    ∃ t l', s.run sz (rounds + 1) = some t ∧ t.Holds sz rest l' ∧
      normalizeLoop sz rounds l s.i.toNat s.j.toNat s.sepfound = (l', t.j.toNat) := by
  induction rounds generalizing s l with
  | zero =>
      have hend : ¬ s.i.toNat < sz := by omega
      exact ⟨s, l, by simp [Normalization.run, Normalization.step, hend], hs, rfl⟩
  | succ rounds ih =>
      by_cases hi : s.i.toNat < sz
      · obtain ⟨t, l₁, hstep, ht, hmoved, hloop⟩ := hs.step hsz hi
        obtain ⟨u, l₂, hrun, hu, hrest⟩ := ih ht (by omega)
        refine ⟨u, l₂, ?_, hu, (hloop rounds).trans hrest⟩
        rw [Normalization.run, hstep]
        exact hrun
      · exact ⟨s, l, by simp [Normalization.run, Normalization.step, hi], hs,
          by simp [normalizeLoop, hi]⟩

theorem start_holds {text : CStr} (rest : List UInt8) :
    (start (text ++ 0 :: rest)).Holds text.length rest text :=
  .of_toNat rfl rfl rfl rfl (Nat.zero_le _) (Nat.le_refl 0)

/-- **The write index never passes the read index.** -/
theorem Reaches.write_le_read {text : CStr} (htext : text.length < UInt32.size)
    (h : Reaches text.length (start (text ++ 0 :: rest)) s) : s.j ≤ s.i := by
  have hholds : ∃ l, s.Holds text.length rest l := by
    induction h with
    | refl => exact ⟨text, start_holds rest⟩
    | tail _ hstep ih =>
        obtain ⟨l, hl⟩ := ih
        rename_i s t _
        by_cases hi : s.i.toNat < text.length
        · obtain ⟨u, l', hu, hholds, -⟩ := hl.step htext hi
          obtain rfl : u = t := Option.some.inj (hu.symm.trans hstep)
          exact ⟨l', hholds⟩
        · simp [Normalization.step, hi] at hstep
  obtain ⟨l, hl⟩ := hholds
  exact hl.write

/-- **Texts the indices do not reach the end of.**  The read index stays below
the length, so every round is followed by another one. -/
theorem step_isSome (hsz : UInt32.size ≤ sz) (s : Normalization) : ∃ t, s.step sz = some t := by
  have hi : s.i.toNat < sz := Nat.lt_of_lt_of_le s.i.toNat_lt hsz
  rw [Normalization.step, if_pos hi]
  dsimp only
  split
  · split <;> exact ⟨_, rfl⟩
  · split <;> exact ⟨_, rfl⟩

theorem run_eq_none (hsz : UInt32.size ≤ sz) (rounds : Nat) (s : Normalization) :
    s.run sz rounds = none := by
  induction rounds generalizing s with
  | zero => rfl
  | succ rounds ih =>
      obtain ⟨t, hstep⟩ := step_isSome hsz s
      rw [Normalization.run, hstep]
      exact ih t

end AtmosUtil.Normalization

/-- The memory after the loop: the squeezed text stands in front of the write
index. -/
theorem normalizeInPlace_eq {text : CStr} (hnul : (0 : UInt8) ∉ text)
    (htext : text.length < UInt32.size) (rest : List UInt8) :
    ∃ l j, l.length = text.length ∧ j ≤ text.length ∧ l.take j = squeeze .name text ∧
      AtmosUtil.normalizeInPlace (text ++ 0 :: rest) = some ((l ++ 0 :: rest).set j 0) := by
  obtain ⟨t, l, hrun, ht, hloop⟩ := (@AtmosUtil.Normalization.start_holds text rest).run
    htext (Nat.le_add_right text.length _)
  refine ⟨l, t.j.toNat, ht.length, ?_, ?_, ?_⟩
  · exact (UInt32.le_iff_toNat_le.mp ht.write).trans ht.read
  · have hloop' : AtmosUtil.normalizeLoop text.length text.length text 0 0 false =
        (l, t.j.toNat) := hloop
    rw [← normalizeWhitespace_eq, AtmosUtil.normalizeWhitespace, hloop']
  · rw [AtmosUtil.normalizeInPlace, readCStr_append, takeWhile_ne_zero hnul]
    change ((AtmosUtil.Normalization.start _).run _ _).bind _ = _
    rw [hrun, Option.bind_some, ht.header]
    rfl

/-- The terminator is written where the text in front of it ends. -/
theorem set_terminator {l rest : List UInt8} {j : Nat} (hj : j ≤ l.length) :
    (l ++ 0 :: rest).set j 0 = l.take j ++ 0 :: (l ++ 0 :: rest).drop (j + 1) := by
  have hlt : j < (l ++ 0 :: rest).length := by
    simp
    omega
  rw [List.set_eq_take_append_cons_drop, if_pos hlt, List.take_append_of_le_length hj]

/-- What stood behind the string still stands there. -/
theorem drop_set_terminator {l rest : List UInt8} {j : Nat} (hj : j ≤ l.length) :
    ((l ++ 0 :: rest).set j 0).drop l.length = 0 :: rest := by
  rcases Nat.lt_or_eq_of_le hj with hlt | rfl
  · rw [List.drop_set_of_lt hlt, List.drop_left]
  · simp

/-- The string in the memory after the loop. -/
theorem readCStr_set_terminator {text l rest : List UInt8} {j : Nat} (hnul : (0 : UInt8) ∉ text)
    (hj : j ≤ l.length) (htake : l.take j = squeeze .name text) :
    readCStr ((l ++ 0 :: rest).set j 0) = some (squeeze .name text) := by
  have hnul' : (0 : UInt8) ∉ squeeze .name text :=
    fun hmem => hnul ((squeeze_sublist .name text).subset hmem)
  rw [set_terminator hj, htake, readCStr_append, takeWhile_ne_zero hnul']

/-- `AtmosUtil_normalize_whitespace` on a string: none where the loop does not
end. -/
def AtmosUtil.Indexed.normalizeWhitespace (header : CStr) : Option CStr :=
  (AtmosUtil.normalizeInPlace (header ++ [0])).bind readCStr

/-- **Normalising with 32-bit indices** gives a result where they reach the end
of the text. -/
theorem AtmosUtil.Indexed.normalizeWhitespace_eq {header : CStr} (hnul : (0 : UInt8) ∉ header) :
    Indexed.normalizeWhitespace header =
      if header.length < UInt32.size then some (AtmosUtil.normalizeWhitespace header)
      else none := by
  rw [Indexed.normalizeWhitespace]
  split
  · rename_i hshort
    obtain ⟨l, j, hlength, hj, htake, hmemory⟩ := normalizeInPlace_eq hnul hshort []
    rw [hmemory, Option.bind_some, readCStr_set_terminator hnul (hlength ▸ hj) htake,
      Atmos.normalizeWhitespace_eq]
  · rename_i hlong
    have hrun := Normalization.run_eq_none (Nat.not_lt.mp hlong) (header.length + 1)
      (Normalization.start (header ++ [0]))
    rw [AtmosUtil.normalizeInPlace, readCStr_append, takeWhile_ne_zero hnul]
    change ((Normalization.run _ _ _).bind _).bind readCStr = none
    rw [hrun]
    rfl

/-- **Whitespace normalisation meets its specification.**  The string in the
memory becomes the line with every run deleted or made one space, in no round
of the loop has the write index passed the read index, and a second
application changes nothing in the memory. -/
theorem normalize_whitespace_runs {text : CStr} (hnul : (0 : UInt8) ∉ text)
    (htext : text.length < UInt32.size) (rest : List UInt8) :
    ∃ memory, AtmosUtil.normalizeInPlace (text ++ 0 :: rest) = some memory ∧
      readCStr memory = some (normalised text) ∧
      memory.drop text.length = 0 :: rest ∧
      (∀ s, AtmosUtil.Normalization.Reaches text.length
        (AtmosUtil.Normalization.start (text ++ 0 :: rest)) s → s.j ≤ s.i) ∧
      AtmosUtil.normalizeInPlace memory = some memory := by
  obtain ⟨l, j, hlength, hj, htake, hmemory⟩ := normalizeInPlace_eq hnul htext rest
  rw [← hlength] at hj
  have hset : (l ++ 0 :: rest).set j 0 =
      squeeze .name text ++ 0 :: (l ++ 0 :: rest).drop (j + 1) := by
    rw [set_terminator hj, htake]
  have hsublist := squeeze_sublist .name text
  have hnul' : (0 : UInt8) ∉ squeeze .name text := fun hmem => hnul (hsublist.subset hmem)
  refine ⟨_, hmemory, ?_, hlength ▸ drop_set_terminator hj, fun _ => (·.write_le_read htext), ?_⟩
  · rw [readCStr_set_terminator hnul hj htake, squeeze_eq_normalised]
  · -- the second time every byte is written where it stands
    rw [hset]
    obtain ⟨l', j', hlength', hj', htake', hmemory'⟩ := normalizeInPlace_eq hnul'
      (Nat.lt_of_le_of_lt hsublist.length_le htext) ((l ++ 0 :: rest).drop (j + 1))
    rw [squeeze_squeeze] at htake'
    have hall : j' = l'.length := by
      have hcount := congrArg List.length htake'
      rw [List.length_take] at hcount
      omega
    rw [hall, List.take_length] at htake'
    rw [hmemory', hall, htake']
    simp

theorem normalize_whitespace_runs_title :
    ∃ memory, AtmosUtil.normalizeInPlace (bytes "x-emc-meta : a,  b" ++ [0]) = some memory ∧
      readCStr memory = some (normalised (bytes "x-emc-meta : a,  b")) ∧
      memory.drop 18 = [0] ∧
      (∀ s, AtmosUtil.Normalization.Reaches 18
        (AtmosUtil.Normalization.start (bytes "x-emc-meta : a,  b" ++ [0])) s → s.j ≤ s.i) ∧
      AtmosUtil.normalizeInPlace memory = some memory :=
  @normalize_whitespace_runs (bytes "x-emc-meta : a,  b") (by decide) (by decide) []

end Atmos
