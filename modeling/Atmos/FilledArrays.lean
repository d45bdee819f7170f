import Mathlib.Data.List.TakeWhile
import Mathlib.Logic.Function.Basic
import Atmos.FixedMemory

/-!
# Arrays filled from the front

A program keeps arrays of fixed sizes, each with a count of the slots in use.
A store puts an item into the first unused slot of one of them and counts it;
it has no result past the end of the array, or where the item overflows the
slot.

* `Store.run_eq_some` — what one store does;
* `keepsEntries_iff` — when every store of a sequence succeeds, leaves good
  slots and keeps the earlier ones;
* `staysWithin_iff` — when a loop that reads its stores from some input never
  indexes an array past its end.
-/

namespace FilledArrays

variable {ι : Type*} {σ : ι → Type*}

/-- Arrays, each with the count of its slots in use. -/
abbrev Arrays (σ : ι → Type*) := ∀ i, List (σ i) × Nat

/-- All counts are within the arrays. -/
def Fits (arrays : Arrays σ) : Prop := ∀ i, (arrays i).2 ≤ (arrays i).1.length

/-- Later arrays of the same sizes with the earlier entries in place. -/
structure Extends (arrays arrays' : Arrays σ) : Prop where
  length : ∀ i, (arrays' i).1.length = (arrays i).1.length
  count : ∀ i, (arrays i).2 ≤ (arrays' i).2
  kept : ∀ i, (arrays' i).1.take (arrays i).2 = (arrays i).1.take (arrays i).2

variable [DecidableEq ι]

/-- The arrays after a slot of one of them is filled. -/
def push (arrays : Arrays σ) (i : ι) (slot : σ i) : Arrays σ :=
  Function.update arrays i ((arrays i).1.set (arrays i).2 slot, (arrays i).2 + 1)

/-- An item for one of the arrays; `put` has no result where the item overflows
the slot. -/
structure Store (σ : ι → Type*) where
  array : ι
  put : σ array → Option (σ array)

/-- Store an item. -/
def Store.run (arrays : Arrays σ) (s : Store σ) : Option (Arrays σ) :=
  (arrays s.array).1[(arrays s.array).2]?.bind fun slot =>
    (s.put slot).map (push arrays s.array)

/-! ## One store -/

section Push

variable (arrays : Arrays σ) (i : ι) (slot : σ i)

theorem push_self :
    push arrays i slot i = ((arrays i).1.set (arrays i).2 slot, (arrays i).2 + 1) :=
  Function.update_self ..

theorem push_of_ne {j : ι} (h : j ≠ i) : push arrays i slot j = arrays j :=
  Function.update_of_ne h ..

theorem length_push (j : ι) : (push arrays i slot j).1.length = (arrays j).1.length := by
  by_cases h : j = i
  · subst h
    rw [push_self, List.length_set]
  · rw [push_of_ne arrays i slot h]

theorem count_push (j : ι) :
    (push arrays i slot j).2 = (arrays j).2 + if i = j then 1 else 0 := by
  by_cases h : i = j
  · subst h
    rw [push_self, if_pos rfl]
  · rw [push_of_ne arrays i slot (Ne.symm h), if_neg h, Nat.add_zero]

/-- The used slots are the old ones and the new one. -/
theorem take_push_self (h : (arrays i).2 < (arrays i).1.length) :
    (push arrays i slot i).1.take (push arrays i slot i).2 =
      (arrays i).1.take (arrays i).2 ++ [slot] := by
  have hlength : (arrays i).2 < ((arrays i).1.set (arrays i).2 slot).length := by
    rwa [List.length_set]
  rw [push_self, List.take_succ_eq_append_getElem hlength, List.getElem_set_self,
    List.take_set_of_le le_rfl]

end Push

theorem fits_push {arrays : Arrays σ} (h : Fits arrays) {i : ι}
    (hroom : (arrays i).2 < (arrays i).1.length) (slot : σ i) : Fits (push arrays i slot) := by
  intro j
  rw [count_push, length_push]
  split
  · rename_i heq
    subst heq
    exact hroom
  · exact h j

theorem Store.run_eq_some {arrays arrays' : Arrays σ} {s : Store σ} :
    s.run arrays = some arrays' ↔
      ∃ slot slot', (arrays s.array).1[(arrays s.array).2]? = some slot ∧
        s.put slot = some slot' ∧ arrays' = push arrays s.array slot' := by
  rw [Store.run, Option.bind_eq_some_iff]
  constructor
  · intro ⟨slot, hslot, h⟩
    obtain ⟨slot', hput, harrays⟩ := Option.map_eq_some_iff.mp h
    exact ⟨slot, slot', hslot, hput, harrays.symm⟩
  · intro ⟨slot, slot', hslot, hput, harrays⟩
    exact ⟨slot, hslot, Option.map_eq_some_iff.mpr ⟨slot', hput, harrays.symm⟩⟩

theorem extends_push (arrays : Arrays σ) (i : ι) (slot : σ i) :
    Extends arrays (push arrays i slot) where
  length j := length_push arrays i slot j
  count j := by
    rw [count_push]
    exact Nat.le_add_right ..
  kept j := by
    by_cases h : j = i
    · subst h
      rw [push_self, List.take_set_of_le le_rfl]
    · rw [push_of_ne arrays i slot h]

/-- A store that always succeeds fills a slot of its array alone. -/
theorem Store.run_eq_update {π : Type*} (i : ι) (put : π → σ i → σ i) (p : π)
    (arrays : Arrays σ) :
    Store.run arrays ⟨i, fun slot => some (put p slot)⟩ =
      (FixedMemory.appendSlot put (arrays i) p).map (Function.update arrays i) := by
  rw [Store.run, FixedMemory.appendSlot]
  cases (arrays i).1[(arrays i).2]? <;> rfl

/-- **One store** keeps the earlier entries of all arrays. -/
theorem Store.run_extends {arrays arrays' : Arrays σ} {s : Store σ}
    (h : s.run arrays = some arrays') : Extends arrays arrays' := by
  obtain ⟨slot, slot', -, -, rfl⟩ := Store.run_eq_some.mp h
  exact extends_push arrays s.array slot'

/-! ## Sequences of stores -/

section Sequences

variable (good : ∀ i, σ i → Prop)

/-- The counts are within the arrays and the slots in use are good. -/
structure Holds (arrays : Arrays σ) : Prop where
  fits : Fits arrays
  good : ∀ i, ∀ slot ∈ (arrays i).1.take (arrays i).2, good i slot

theorem holds_push_iff {good} {arrays : Arrays σ} (h : Holds good arrays) {i : ι}
    (hroom : (arrays i).2 < (arrays i).1.length) (slot : σ i) :
    Holds good (push arrays i slot) ↔ good i slot := by
  constructor
  · intro hpush
    apply hpush.good i slot
    rw [take_push_self arrays i slot hroom]
    exact List.mem_append_right _ (List.mem_singleton_self slot)
  · intro hslot
    constructor
    · exact fits_push h.fits hroom slot
    · intro j other hmem
      by_cases hj : j = i
      · subst hj
        rw [take_push_self arrays j slot hroom] at hmem
        rcases List.mem_append.mp hmem with hmem | hmem
        · exact h.good j other hmem
        · rw [List.mem_singleton.mp hmem]
          exact hslot
      · rw [push_of_ne arrays i slot hj] at hmem
        exact h.good j other hmem

/-- Every store of a sequence succeeds, in the state it finds; it leaves the
counts within the arrays, good slots and the earlier entries as they were. -/
def KeepsEntries (stores : List (Store σ)) (arrays : Arrays σ) : Prop :=
  ∀ done s later, stores = done ++ s :: later →
    ∃ st st', done.foldlM Store.run arrays = some st ∧ s.run st = some st' ∧
      Holds good st' ∧ Extends st st'

theorem keepsEntries_nil (arrays : Arrays σ) : KeepsEntries good [] arrays := by
  intro done s later h
  exact absurd h.symm (List.append_ne_nil_of_right_ne_nil _ (List.cons_ne_nil s later))

/-- The first store, and then the others in the state it leaves. -/
theorem keepsEntries_cons {s : Store σ} {stores : List (Store σ)} {arrays : Arrays σ} :
    KeepsEntries good (s :: stores) arrays ↔
      ∃ st, s.run arrays = some st ∧ Holds good st ∧ KeepsEntries good stores st := by
  constructor
  · intro h
    obtain ⟨st, st', hst, hrun, hholds, -⟩ := h [] s stores rfl
    obtain rfl := Option.some.inj hst
    refine ⟨st', hrun, hholds, ?_⟩
    intro done next later heq
    obtain ⟨reached, reached', hdone, hnext⟩ := h (s :: done) next later (by rw [heq]; rfl)
    rw [List.foldlM_cons, hrun] at hdone
    exact ⟨reached, reached', hdone, hnext⟩
  · intro ⟨st, hrun, hholds, hrest⟩ done next later heq
    cases done with
    | nil =>
        obtain ⟨rfl, -⟩ := List.cons.inj heq
        exact ⟨arrays, st, rfl, hrun, hholds, Store.run_extends hrun⟩
    | cons first done =>
        obtain ⟨rfl, htail⟩ := List.cons.inj heq
        obtain ⟨reached, reached', hdone, hnext⟩ := hrest done next later htail
        refine ⟨reached, reached', ?_, hnext⟩
        rw [List.foldlM_cons, hrun]
        exact hdone

/-- **A sequence of stores** keeps its entries exactly when every item goes into
a slot and no array gets more items than it has slots left. -/
theorem keepsEntries_iff {κ : Type*} {store : κ → Store σ} {good} {ok : κ → Prop}
    {items : List κ} {arrays : Arrays σ} (hholds : Holds good arrays)
    (hput : ∀ c ∈ items, ∀ slot,
      (∃ slot', (store c).put slot = some slot' ∧ good (store c).array slot') ↔ ok c) :
    KeepsEntries good (items.map store) arrays ↔
      (∀ c ∈ items, ok c) ∧
      ∀ i, (arrays i).2 + items.countP (fun c => (store c).array = i) ≤ (arrays i).1.length := by
  induction items generalizing arrays with
  | nil =>
      exact iff_of_true (keepsEntries_nil good arrays)
        ⟨fun _ hc => absurd hc List.not_mem_nil, hholds.fits⟩
  | cons c items ih =>
      have hput' := hput c (List.mem_cons_self ..)
      have hrest := fun c hc => hput c (List.mem_cons_of_mem _ hc)
      rw [List.map_cons, keepsEntries_cons]
      constructor
      · intro ⟨st, hrun, hst, hkeeps⟩
        obtain ⟨slot, slot', hslot, hputs, rfl⟩ := Store.run_eq_some.mp hrun
        have hroom := (List.getElem?_eq_some_iff.mp hslot).1
        obtain ⟨hok, hcounts⟩ := (ih hst hrest).mp hkeeps
        refine ⟨?_, ?_⟩
        · intro other hmem
          rcases List.mem_cons.mp hmem with rfl | hmem
          · exact (hput' slot).mp ⟨slot', hputs, (holds_push_iff hholds hroom slot').mp hst⟩
          · exact hok other hmem
        · intro i
          have hcount := hcounts i
          rw [count_push, length_push] at hcount
          rw [List.countP_cons]
          simp only [decide_eq_true_eq]
          omega
      · intro ⟨hok, hcounts⟩
        have hroom : (arrays (store c).array).2 < (arrays (store c).array).1.length := by
          have hcount := hcounts (store c).array
          rw [List.countP_cons_of_pos (by simp)] at hcount
          omega
        obtain ⟨slot', hputs, hgood⟩ := (hput' _).mpr (hok c (List.mem_cons_self ..))
        have hst := (holds_push_iff hholds hroom slot').mpr hgood
        have hrun := Store.run_eq_some.mpr
          ⟨_, slot', List.getElem?_eq_getElem hroom, hputs, rfl⟩
        refine ⟨_, hrun, hst, (ih hst hrest).mpr ⟨?_, ?_⟩⟩
        · intro other hmem
          exact hok other (List.mem_cons_of_mem _ hmem)
        · intro i
          have hcount := hcounts i
          rw [List.countP_cons] at hcount
          simp only [decide_eq_true_eq] at hcount
          rw [count_push, length_push]
          omega

end Sequences

/-! ## Loops that read their stores -/

section Loops

variable {ρ : Type*} (read : ρ → Option (Option (Store σ)))

/-- A round of a loop: it reads a piece of the input, which may yield an item
to store.  Reading has no result where it overflows a buffer of its own. -/
def storeRound (arrays : Arrays σ) (r : ρ) : Option (Arrays σ) :=
  (read r).bind fun store => store.elim (some arrays) (Store.run arrays)

/-- A loop indexes its arrays within their sizes, and keeps the counts within
them, in every state it reaches. -/
structure StaysWithin (rounds : List ρ) (arrays : Arrays σ) : Prop where
  index : ∀ done r later st s, rounds = done ++ r :: later →
    done.foldlM (storeRound read) arrays = some st → read r = some (some s) →
      (st s.array).2 < (st s.array).1.length
  count : ∀ done later st, rounds = done ++ later →
    done.foldlM (storeRound read) arrays = some st → Fits st

theorem staysWithin_cons {r : ρ} {rounds : List ρ} {arrays : Arrays σ} :
    StaysWithin read (r :: rounds) arrays ↔
      Fits arrays ∧
      (∀ s, read r = some (some s) → (arrays s.array).2 < (arrays s.array).1.length) ∧
      ∀ st, storeRound read arrays r = some st → StaysWithin read rounds st := by
  have hreach : ∀ {done st st'}, storeRound read arrays r = some st →
      done.foldlM (storeRound read) st = some st' →
        (r :: done).foldlM (storeRound read) arrays = some st' := by
    intro done st st' hround hdone
    rw [List.foldlM_cons, hround]
    exact hdone
  constructor
  · intro h
    refine ⟨h.count [] _ arrays rfl rfl, fun s hread => h.index [] r rounds arrays s rfl rfl hread,
      ?_⟩
    intro st hround
    constructor
    · intro done next later reached s heq hdone hread
      exact h.index (r :: done) next later reached s (by rw [heq]; rfl) (hreach hround hdone) hread
    · intro done later reached heq hdone
      exact h.count (r :: done) later reached (by rw [heq]; rfl) (hreach hround hdone)
  · intro ⟨hfits, hindex, hrest⟩
    constructor
    · intro done next later reached s heq hdone hread
      cases done with
      | nil =>
          obtain ⟨rfl, -⟩ := List.cons.inj heq
          obtain rfl := Option.some.inj hdone
          exact hindex s hread
      | cons first done =>
          obtain ⟨rfl, htail⟩ := List.cons.inj heq
          obtain ⟨st, hround, hdone⟩ := Option.bind_eq_some_iff.mp hdone
          exact (hrest st hround).index done next later reached s htail hdone hread
    · intro done later reached heq hdone
      cases done with
      | nil =>
          obtain rfl := Option.some.inj hdone
          exact hfits
      | cons first done =>
          obtain ⟨rfl, htail⟩ := List.cons.inj heq
          obtain ⟨st, hround, hdone⟩ := Option.bind_eq_some_iff.mp hdone
          exact (hrest st hround).count done later reached htail hdone

/-- The number of items some rounds read for an array. -/
def itemsFor (rounds : List ρ) (i : ι) : Nat :=
  rounds.countP fun r => (read r).join.map Store.array = some i

theorem itemsFor_cons (r : ρ) (rounds : List ρ) (i : ι) :
    itemsFor read (r :: rounds) i =
      itemsFor read rounds i + if (read r).join.map Store.array = some i then 1 else 0 := by
  rw [itemsFor, List.countP_cons]
  simp only [decide_eq_true_eq]
  rfl

theorem staysWithin_nil (arrays : Arrays σ) : StaysWithin read [] arrays ↔ Fits arrays := by
  constructor
  · intro h
    exact h.count [] [] arrays rfl rfl
  · intro hfits
    constructor
    · intro done r later st s heq
      exact absurd heq.symm (List.append_ne_nil_of_right_ne_nil _ (List.cons_ne_nil r later))
    · intro done later st heq hdone
      obtain ⟨rfl, -⟩ := List.append_eq_nil_iff.mp heq.symm
      obtain rfl := Option.some.inj hdone
      exact hfits

variable {read}

/-- A round that stores nothing. -/
theorem staysWithin_cons_of_skip {r : ρ} {rounds : List ρ} {arrays : Arrays σ}
    (hread : read r = some none) :
    StaysWithin read (r :: rounds) arrays ↔ Fits arrays ∧ StaysWithin read rounds arrays := by
  have hround : storeRound read arrays r = some arrays := by simp [storeRound, hread]
  rw [staysWithin_cons, hround, hread]
  constructor
  · rintro ⟨hfits, -, hrest⟩
    exact ⟨hfits, hrest arrays rfl⟩
  · intro ⟨hfits, hrest⟩
    refine ⟨hfits, nofun, ?_⟩
    intro st hst
    obtain rfl := Option.some.inj hst
    exact hrest

/-- A round that stores an item into a free slot, if there is one. -/
theorem staysWithin_cons_of_store {r : ρ} {rounds : List ρ} {arrays : Arrays σ} {s : Store σ}
    (hread : read r = some (some s)) (hroom : (arrays s.array).2 < (arrays s.array).1.length)
    {slot' : σ s.array} (hputs : s.put (arrays s.array).1[(arrays s.array).2] = some slot') :
    StaysWithin read (r :: rounds) arrays ↔
      Fits arrays ∧ StaysWithin read rounds (push arrays s.array slot') := by
  have hrun : s.run arrays = some (push arrays s.array slot') :=
    Store.run_eq_some.mpr ⟨_, slot', List.getElem?_eq_getElem hroom, hputs, rfl⟩
  have hround : storeRound read arrays r = some (push arrays s.array slot') := by
    simp [storeRound, hread, hrun]
  rw [staysWithin_cons, hround, hread]
  constructor
  · rintro ⟨hfits, -, hrest⟩
    exact ⟨hfits, hrest _ rfl⟩
  · intro ⟨hfits, hrest⟩
    refine ⟨hfits, ?_, ?_⟩
    · intro other heq
      cases heq
      exact hroom
    · intro st hst
      obtain rfl := Option.some.inj hst
      exact hrest

/-- **A loop** stays within its arrays exactly when no array gets more items
than it has slots left, before the first round that overflows a buffer. -/
theorem staysWithin_iff (hput : ∀ r s, read r = some (some s) →
    ∀ slot, (s.put slot).isSome = true) {rounds : List ρ} {arrays : Arrays σ}
    (hfits : Fits arrays) :
    StaysWithin read rounds arrays ↔ ∀ i, (arrays i).2 +
      itemsFor read (rounds.takeWhile fun r => (read r).isSome) i ≤ (arrays i).1.length := by
  induction rounds generalizing arrays with
  | nil => exact (staysWithin_nil read arrays).trans (iff_of_true hfits hfits)
  | cons r rounds ih =>
      rcases hread : read r with _ | _ | s
      · -- the loop overflows a buffer before it could index an array
        rw [List.takeWhile_cons_of_neg (by simp [hread]), staysWithin_cons]
        simp only [storeRound, hread]
        exact iff_of_true ⟨hfits, nofun, nofun⟩ hfits
      · rw [List.takeWhile_cons_of_pos (by simp [hread]), staysWithin_cons_of_skip hread,
          and_iff_right hfits, ih hfits]
        simp only [itemsFor_cons, hread]
        rfl
      · rw [List.takeWhile_cons_of_pos (by simp [hread])]
        have hitems : ∀ rounds i, itemsFor read (r :: rounds) i =
            itemsFor read rounds i + if s.array = i then 1 else 0 := by
          intro rounds i
          rw [itemsFor_cons, hread]
          simp
        by_cases hroom : (arrays s.array).2 < (arrays s.array).1.length
        · obtain ⟨slot', hputs⟩ := Option.isSome_iff_exists.mp
            (hput r s hread (arrays s.array).1[(arrays s.array).2])
          rw [staysWithin_cons_of_store hread hroom hputs, and_iff_right hfits,
            ih (fits_push hfits hroom slot')]
          apply forall_congr'
          intro i
          rw [count_push, length_push, hitems]
          omega
        · -- the array is full
          refine iff_of_false ?_ ?_
          · intro h
            exact hroom (((staysWithin_cons read).mp h).2.1 s hread)
          · intro h
            have hcount := h s.array
            rw [hitems, if_pos rfl] at hcount
            omega

end Loops

end FilledArrays
