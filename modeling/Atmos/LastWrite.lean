import Mathlib.Data.List.Basic

/-!
# The last write wins

A program takes events one by one, and some events overwrite a part of its
state.  After a run that part has the value of the last event that wrote it, or
its old value if none did.

* `view_foldlM` — this, from what one step does;
* `foldlM_isSome` — a run succeeds if its steps do.
-/

namespace LastWrite

variable {ρ ε α : Type*}

/-- The value of a part of a state after some events. -/
def last (written : ε → Option α) (events : List ε) (initial : α) : α :=
  (events.filterMap written).getLast?.getD initial

theorem last_cons (written : ε → Option α) (e : ε) (events : List ε) (initial : α) :
    last written (e :: events) initial = last written events ((written e).getD initial) := by
  unfold last
  cases hwritten : written e with
  | none =>
      rw [List.filterMap_cons_none hwritten]
      rfl
  | some value =>
      rw [List.filterMap_cons_some hwritten, List.getLast?_cons]
      rfl

/-- **A run** leaves the value that was written last. -/
theorem view_foldlM {step : ρ → ε → Option ρ} {view : ρ → α} {written : ε → Option α}
    (hstep : ∀ {st st' : ρ} {e : ε}, step st e = some st' →
      view st' = (written e).getD (view st))
    {events : List ε} {st st' : ρ} (h : events.foldlM step st = some st') :
    view st' = last written events (view st) := by
  induction events generalizing st with
  | nil =>
      obtain rfl := Option.some.inj h
      rfl
  | cons e events ih =>
      obtain ⟨next, hnext, hrest⟩ := Option.bind_eq_some_iff.mp h
      rw [ih hrest, last_cons, hstep hnext]

/-- The same for a run that always succeeds. -/
theorem view_foldl {step : ρ → ε → ρ} {view : ρ → α} {written : ε → Option α}
    (hstep : ∀ st e, view (step st e) = (written e).getD (view st)) (events : List ε) (st : ρ) :
    view (events.foldl step st) = last written events (view st) := by
  induction events generalizing st with
  | nil => rfl
  | cons e events ih => rw [List.foldl_cons, ih, hstep, last_cons]

/-- Steps that succeed in every state make a run that does. -/
theorem foldlM_isSome {step : ρ → ε → Option ρ} {events : List ε}
    (hstep : ∀ e ∈ events, ∀ st, (step st e).isSome) (st : ρ) :
    (events.foldlM step st).isSome := by
  induction events generalizing st with
  | nil => rfl
  | cons e events ih =>
      obtain ⟨next, hnext⟩ := Option.isSome_iff_exists.mp (hstep e (List.mem_cons_self ..) st)
      rw [List.foldlM_cons, hnext]
      exact ih (fun e he => hstep e (List.mem_cons_of_mem _ he)) next

/-- A run succeeds exactly if its steps do, where their success does not depend
on the state. -/
theorem foldlM_isSome_iff {step : ρ → ε → Option ρ} {ok : ε → Prop}
    (hstep : ∀ st e, (step st e).isSome ↔ ok e) (events : List ε) (st : ρ) :
    (events.foldlM step st).isSome ↔ ∀ e ∈ events, ok e := by
  induction events generalizing st with
  | nil => simp
  | cons e events ih =>
      rw [List.foldlM_cons, List.forall_mem_cons, ← hstep st e]
      cases step st e with
      | none => simp
      | some next => simpa using ih next

/-- The last of some values that are computed from others. -/
theorem last_map {β : Type*} (written : ε → Option α) (g : α → β) (events : List ε)
    (initial : β) : last (fun e => (written e).map g) events initial =
      ((events.filterMap written).getLast?).elim initial g := by
  have hmap : events.filterMap (fun e => (written e).map g) =
      (events.filterMap written).map g := by
    rw [List.map_filterMap]
  rw [last, hmap, List.getLast?_map]
  cases (events.filterMap written).getLast? <;> rfl

end LastWrite
