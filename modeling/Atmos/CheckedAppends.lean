import Mathlib.Data.List.Basic

/-!
# Appends under a running check

A writer sends data to a store, write after write.  With each it states a check of all that
it has fed to the check so far.  A write can get lost; the store takes one that arrives if
what it makes of the content has the stated check.

* `store_eq` — a store that has what was fed takes exactly the writes that append;
* `run_behind` — a store that has less takes nothing any more;
* `run_eq` — what is taken over a whole run, and what the store has in the end.
-/

namespace CheckedAppends

variable {α γ : Type}

/-- A write: the offset of its data in the content, none where they replace it. -/
structure Write (α : Type) where
  offset : Option Nat
  data : List α
  arrives : Bool

/-- Data written over the content from an offset on. -/
def splice (content : List α) (offset : Nat) (data : List α) : List α :=
  content.take offset ++ data ++ content.drop (offset + data.length)

theorem splice_length (content data : List α) :
    splice content content.length data = content ++ data := by
  rw [splice, List.take_length, List.drop_of_length_le (Nat.le_add_right ..), List.append_nil]

theorem length_splice {content : List α} {offset : Nat} (h : offset ≤ content.length)
    (data : List α) :
    (splice content offset data).length = max content.length (offset + data.length) := by
  rw [splice, List.length_append, List.length_append, List.length_take, List.length_drop]
  omega

namespace Write

variable (content : List α) (w : Write α)

/-- What a write makes of the content; none for an offset behind its end. -/
def result : Option (List α) :=
  match w.offset with
  | none => some w.data
  | some offset =>
      if offset ≤ content.length then some (splice content offset w.data) else none

/-- The data go behind a content of this length. -/
def appends (total : Nat) : Bool :=
  match w.offset with
  | none => total = 0
  | some offset => offset = total

variable [DecidableEq γ] (check : List α → γ)

/-- The content after a write, none where it is not taken. -/
def store (stated : γ) : Option (List α) :=
  (w.result content).filter fun content => check content = stated

end Write

section Store

variable {w : Write α} {content fed : List α}

/-- A write that appends. -/
theorem result_of_appends (h : w.appends content.length = true) :
    w.result content = some (content ++ w.data) := by
  obtain ⟨offset, data, arrives⟩ := w
  cases offset with
  | none =>
      obtain rfl := List.length_eq_zero_iff.mp (of_decide_eq_true h)
      rfl
  | some offset =>
      obtain rfl := of_decide_eq_true h
      rw [Write.result]
      dsimp only
      rw [if_pos (Nat.le_refl _), splice_length]

/-- Another does not make the content longer by all its data. -/
theorem length_result_lt {content' : List α} (h : w.appends content.length = false)
    (hne : w.data ≠ []) (hresult : w.result content = some content') :
    content'.length < content.length + w.data.length := by
  have hdata := List.length_pos_of_ne_nil hne
  obtain ⟨offset, data, arrives⟩ := w
  cases offset with
  | none =>
      have hcontent : content.length ≠ 0 := of_decide_eq_false h
      obtain rfl := Option.some.inj hresult
      dsimp only
      omega
  | some offset =>
      have hoffset : offset ≠ content.length := of_decide_eq_false h
      rw [Write.result] at hresult
      dsimp only at hresult hdata ⊢
      split at hresult
      · rename_i hle
        obtain rfl := Option.some.inj hresult
        rw [length_splice hle]
        omega
      · cases hresult

theorem length_result_le {content' : List α} (hresult : w.result content = some content') :
    content'.length ≤ content.length + w.data.length := by
  obtain ⟨offset, data, arrives⟩ := w
  cases offset with
  | none =>
      obtain rfl := Option.some.inj hresult
      exact Nat.le_add_left ..
  | some offset =>
      rw [Write.result] at hresult
      dsimp only at hresult ⊢
      split at hresult
      · rename_i hle
        obtain rfl := Option.some.inj hresult
        rw [length_splice hle]
        omega
      · cases hresult

variable [DecidableEq γ] {check : List α → γ}
  (hcheck : ∀ {xs ys : List α}, check xs = check ys → xs.length = ys.length)

include hcheck

/-- **Both sides have the same**: a write is taken exactly if it appends. -/
theorem store_eq (hne : w.data ≠ []) :
    w.store content check (check (content ++ w.data)) =
      if w.appends content.length then some (content ++ w.data) else none := by
  rw [Write.store]
  cases happends : w.appends content.length with
  | true =>
      rw [result_of_appends happends, if_pos rfl]
      exact Option.filter_eq_some_iff.mpr ⟨rfl, decide_eq_true rfl⟩
  | false =>
      rw [if_neg Bool.false_ne_true, Option.filter_eq_none_iff]
      intro content' hresult htaken
      have hlength := hcheck (of_decide_eq_true htaken)
      have hlt := length_result_lt happends hne hresult
      rw [List.length_append] at hlength
      omega

/-- **The store has less than was fed**: nothing is taken. -/
theorem store_behind (h : content.length < fed.length) :
    w.store content check (check (fed ++ w.data)) = none := by
  rw [Write.store, Option.filter_eq_none_iff]
  intro content' hresult htaken
  have hlength := hcheck (of_decide_eq_true htaken)
  have hle := length_result_le hresult
  rw [List.length_append] at hlength
  omega

end Store

/-! ## Runs -/

section Runs

variable [DecidableEq γ] (check : List α → γ)

/-- A run, from what was fed and what the store has: which writes are taken, and what the
store has in the end. -/
def run : List α → List α → List (Write α) → List Bool × List α
  | _, content, [] => ([], content)
  | fed, content, w :: writes =>
      let stored := if w.arrives then w.store content check (check (fed ++ w.data)) else none
      let rest := run (fed ++ w.data) (stored.getD content) writes
      (stored.isSome :: rest.1, rest.2)

/-- The writes that are taken, by a store with a content of this length: those that arrive
and append, up to the first other one that feeds the check. -/
def taken : Nat → List (Write α) → List Bool
  | _, [] => []
  | total, w :: writes =>
      if w.arrives && w.appends total then true :: taken (total + w.data.length) writes
      else if w.data.isEmpty then false :: taken total writes
      else List.replicate (writes.length + 1) false

/-- The data of some writes. -/
def written (writes : List (Write α)) (flags : List Bool) : List α :=
  ((writes.zip flags).filter (·.2)).flatMap (·.1.data)

theorem written_replicate (writes : List (Write α)) (n : Nat) :
    written writes (List.replicate n false) = [] := by
  have hnone : ((writes.zip (List.replicate n false)).filter (·.2)) = [] := by
    apply List.filter_eq_nil_iff.mpr
    intro pair hpair htaken
    have hflag := List.eq_of_mem_replicate (List.of_mem_zip hpair).2
    rw [hflag] at htaken
    cases htaken
  rw [written, hnone]
  rfl

variable {check} (hcheck : ∀ {xs ys : List α}, check xs = check ys → xs.length = ys.length)

include hcheck

/-- A store that is behind stays as it is. -/
theorem run_behind {fed content : List α} (h : content.length < fed.length)
    (writes : List (Write α)) :
    run check fed content writes = (List.replicate writes.length false, content) := by
  induction writes generalizing fed with
  | nil => rfl
  | cons w writes ih =>
      have hstored : (if w.arrives then w.store content check (check (fed ++ w.data)) else none) =
          none := by
        rw [store_behind hcheck h, ite_self]
      have hrest := @ih (fed ++ w.data) (by rw [List.length_append]; omega)
      rw [run, hstored, Option.getD_none, hrest]
      rfl

/-- **A whole run**: the store has the data of the writes it took. -/
theorem run_eq {writes : List (Write α)} (harrives : ∀ w ∈ writes, w.arrives = true → w.data ≠ [])
    (content : List α) :
    run check content content writes =
      (taken content.length writes, content ++ written writes (taken content.length writes)) := by
  induction writes generalizing content with
  | nil => rw [run, taken, written, List.zip_nil_left]; simp
  | cons w writes ih =>
      obtain ⟨hw, hwrites⟩ := List.forall_mem_cons.mp harrives
      rw [run, taken]
      cases harrived : w.arrives && w.appends content.length with
      | true =>
          obtain ⟨harrive, happends⟩ := Bool.and_eq_true_iff.mp harrived
          rw [if_pos harrive, store_eq hcheck (hw harrive), if_pos happends, if_pos rfl,
            Option.getD_some, ih hwrites, List.length_append, written]
          simp [written, List.append_assoc]
      | false =>
          have hstored : (if w.arrives then
              w.store content check (check (content ++ w.data)) else none) = none := by
            cases harrive : w.arrives with
            | false => rfl
            | true =>
                rw [harrive, Bool.true_and] at harrived
                rw [if_pos rfl, store_eq hcheck (hw harrive), harrived]
                rfl
          rw [hstored, if_neg Bool.false_ne_true, Option.getD_none]
          by_cases hdata : w.data = []
          · rw [hdata, List.append_nil, List.isEmpty_nil, if_pos rfl, ih hwrites]
            simp [written]
          · have hpos := List.length_pos_of_ne_nil hdata
            rw [run_behind hcheck (by rw [List.length_append]; omega),
              if_neg (by simpa using hdata), written_replicate, List.append_nil]
            rfl

end Runs

end CheckedAppends
