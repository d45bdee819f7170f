import Mathlib.Logic.Relation

/-!
# Chains of filters

A request passes through a chain of filters.  Each filter changes the state
and then calls the next one, or returns early.  The filter that was added last
runs first.

* `run_append_eq_next` — a chain made of two parts runs one after the other;
* `run_next_induction` — what every filter does to the state, the chain does
  to it, for a reflexive and transitive relation;
* `unwind_foldl_add` — on the way back, the filters that were added come last.
-/

namespace FilterChain

/-- What a filter does with the state before the next filter would run: pass
it on, or return at once. -/
inductive Step (σ ρ : Type*) where
  | next (s : σ)
  | stop (r : ρ)
  deriving DecidableEq, Repr

/-- Change the state on either way. -/
def Step.map {σ σ' ρ ρ' : Type*} (f : σ → σ') (g : ρ → ρ') : Step σ ρ → Step σ' ρ'
  | next s => next (f s)
  | stop r => stop (g r)

/-- The state that is passed on. -/
def Step.passed {σ ρ : Type*} : Step σ ρ → Option σ
  | next s => some s
  | stop _ => none

/-- A filter up to its call of the next one.  The result `none` is undefined
behaviour. -/
abbrev Filter (σ ρ : Type*) := σ → Option (Step σ ρ)

/-- A new filter goes in front. -/
def add {φ : Type*} (chain : List φ) (f : φ) : List φ := f :: chain

/-- The filter added last is the first one. -/
theorem foldl_add {φ : Type*} (chain filters : List φ) :
    filters.foldl add chain = filters.reverse ++ chain := by
  induction filters generalizing chain with
  | nil => rfl
  | cons f filters ih =>
      rw [List.foldl_cons, ih, List.reverse_cons, List.append_assoc]
      rfl

variable {σ ρ : Type*}

/-- Run the filters in order until one of them returns early. -/
def run : List (Filter σ ρ) → Filter σ ρ
  | [], s => some (.next s)
  | f :: chain, s =>
      match f s with
      | some (.next s') => run chain s'
      | some (.stop r) => some (.stop r)
      | none => none

@[simp] theorem run_nil (s : σ) : run ([] : List (Filter σ ρ)) s = some (.next s) := rfl

/-- A chain reaches its end when its first filter passes the state on and the
others do so with the state they get. -/
theorem run_cons_eq_next {f : Filter σ ρ} {chain : List (Filter σ ρ)} {s s'' : σ} :
    run (f :: chain) s = some (.next s'') ↔
      ∃ s', f s = some (.next s') ∧ run chain s' = some (.next s'') := by
  rw [run]
  split
  · rename_i s' hf
    rw [hf]
    constructor
    · intro h
      exact ⟨s', rfl, h⟩
    · intro ⟨t, ht, h⟩
      cases ht
      exact h
  · rename_i r hf
    simp [hf]
  · rename_i hf
    simp [hf]

theorem run_pair_eq_next {f g : Filter σ ρ} {s s'' : σ} :
    run [f, g] s = some (.next s'') ↔
      ∃ s', f s = some (.next s') ∧ g s' = some (.next s'') := by
  rw [run_cons_eq_next]
  constructor
  · intro ⟨s', hf, h⟩
    obtain ⟨t, hg, hnil⟩ := run_cons_eq_next.mp h
    cases hnil
    exact ⟨s', hf, hg⟩
  · intro ⟨s', hf, hg⟩
    exact ⟨s', hf, run_cons_eq_next.mpr ⟨s'', hg, rfl⟩⟩

/-- **Two chains in a row.** -/
theorem run_append_eq_next {chain chain' : List (Filter σ ρ)} {s s'' : σ} :
    run (chain ++ chain') s = some (.next s'') ↔
      ∃ s', run chain s = some (.next s') ∧ run chain' s' = some (.next s'') := by
  induction chain generalizing s with
  | nil => simp
  | cons f chain ih =>
      rw [List.cons_append, run_cons_eq_next]
      constructor
      · intro ⟨t, hf, h⟩
        obtain ⟨s', hchain, hchain'⟩ := ih.mp h
        exact ⟨s', run_cons_eq_next.mpr ⟨t, hf, hchain⟩, hchain'⟩
      · intro ⟨s', h, hchain'⟩
        obtain ⟨t, hf, hchain⟩ := run_cons_eq_next.mp h
        exact ⟨t, hf, ih.mpr ⟨s', hchain, hchain'⟩⟩

/-- A chain that returns early does so before any other chain. -/
theorem run_append_of_stop {chain : List (Filter σ ρ)} {s : σ} {r : ρ}
    (h : run chain s = some (.stop r)) (chain' : List (Filter σ ρ)) :
    run (chain ++ chain') s = some (.stop r) := by
  induction chain generalizing s with
  | nil => cases h
  | cons f chain ih =>
      rw [List.cons_append, run]
      rw [run] at h
      cases hf : f s with
      | none =>
          rw [hf] at h
          cases h
      | some step =>
          rw [hf] at h
          cases step with
          | next s' => exact ih h
          | stop r' => exact h

theorem run_singleton (f : Filter σ ρ) (s : σ) : run [f] s = f s := by
  rw [run]
  cases f s with
  | none => rfl
  | some step => cases step <;> rfl

/-- **The chain rule.**  A relation between the states before and after, kept
by every filter, is kept by the chain. -/
theorem run_next_induction {R : σ → σ → Prop} (hrefl : ∀ s, R s s)
    (htrans : ∀ s s' s'', R s s' → R s' s'' → R s s'') {chain : List (Filter σ ρ)}
    (hstep : ∀ f ∈ chain, ∀ s s', f s = some (.next s') → R s s') {s s' : σ}
    (h : run chain s = some (.next s')) : R s s' := by
  induction chain generalizing s with
  | nil =>
      cases h
      exact hrefl _
  | cons f chain ih =>
      obtain ⟨t, hf, hchain⟩ := run_cons_eq_next.mp h
      have hfirst := hstep f (List.mem_cons_self ..) _ t hf
      have hothers := ih (fun g hg => hstep g (List.mem_cons_of_mem f hg)) hchain
      exact htrans _ t s' hfirst hothers

/-! ## The way back -/

section Unwinding

universe u v w

variable {φ : Type u} {ρ : Type v} {m : Type v → Type w} [Monad m] [LawfulMonad m]
  (after : φ → ρ → m ρ)

/-- Run the filters on the response, once the next one has returned: the last
filter of the chain comes first. -/
def unwind (chain : List φ) (response : ρ) : m ρ := chain.foldrM after response

/-- The filters of a chain come before the ones that were added to it. -/
theorem unwind_foldl_add (chain filters : List φ) (response : ρ) :
    unwind after (filters.foldl add chain) response =
      unwind after chain response >>= fun response =>
        filters.foldlM (fun response f => after f response) response := by
  rw [unwind, foldl_add, List.foldrM_append]
  simp only [List.foldrM_reverse]
  rfl

/-- Filters that leave a response alone. -/
theorem foldlM_idle {filters : List φ} {response : ρ}
    (h : ∀ f ∈ filters, after f response = pure response) :
    filters.foldlM (fun response f => after f response) response = pure response := by
  induction filters with
  | nil => rfl
  | cons f filters ih =>
      rw [List.foldlM_cons, h f (List.mem_cons_self ..), pure_bind]
      exact ih fun g hg => h g (List.mem_cons_of_mem f hg)

/-- Filters that leave every response alone can be left out. -/
theorem foldlM_filter {works : φ → Bool} (h : ∀ f, works f = false → ∀ r, after f r = pure r)
    (filters : List φ) (response : ρ) :
    filters.foldlM (fun response f => after f response) response =
      (filters.filter works).foldlM (fun response f => after f response) response := by
  induction filters generalizing response with
  | nil => rfl
  | cons f filters ih =>
      rw [List.foldlM_cons, List.filter_cons]
      cases hworks : works f with
      | true =>
          rw [if_pos rfl, List.foldlM_cons]
          congr 1
          funext next
          exact ih next
      | false => rw [if_neg (by decide), h f hworks, pure_bind, ih]

end Unwinding

end FilterChain
