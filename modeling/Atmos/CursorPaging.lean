import Mathlib.Data.List.Basic
import Mathlib.Data.Option.Basic

/-!
# Paging by cursors

Results that are fetched a page at a time.  A fetch from a state gives a page and, if
there are more results, the state to go on from; it has no result where it fails.

* `Pages` — the pages of a finite listing;
* `collect_eq_iff` — a loop that goes on as long as it is told to collects them;
* `Pages.simulated` — a fetch that follows another one finds the same pages;
* `collect_of_invariant` — a fetch that makes no progress is never done.
-/

namespace CursorPaging

variable {σ τ ρ : Type*}

/-- Fetch pages, for a number of rounds: what was fetched, and the state in which there is
more. -/
def collect (fetch : σ → Option (ρ × Option σ)) : Nat → σ → Option (List ρ × Option σ)
  | 0, s => some ([], some s)
  | rounds + 1, s => do
      let (page, next) ← fetch s
      let (pages, rest) ← next.elim (some ([], none)) (collect fetch rounds)
      some (page :: pages, rest)

/-- The pages from a state on, up to one that is the last. -/
inductive Pages (fetch : σ → Option (ρ × Option σ)) : σ → List ρ → Prop
  | last {s : σ} {page : ρ} (h : fetch s = some (page, none)) : Pages fetch s [page]
  | more {s next : σ} {page : ρ} {pages : List ρ} (h : fetch s = some (page, some next))
      (hnext : Pages fetch next pages) : Pages fetch s (page :: pages)

variable {fetch : σ → Option (ρ × Option σ)} {s : σ}

theorem collect_last {page : ρ} (h : fetch s = some (page, none)) (rounds : Nat) :
    collect fetch (rounds + 1) s = some ([page], none) := by
  rw [collect, h]
  rfl

theorem collect_more {next : σ} {page : ρ} (h : fetch s = some (page, some next))
    (rounds : Nat) :
    collect fetch (rounds + 1) s =
      (collect fetch rounds next).map fun rest => (page :: rest.1, rest.2) := by
  rw [collect, h]
  change ((collect fetch rounds next).bind fun rest => some (page :: rest.1, rest.2)) = _
  cases collect fetch rounds next <;> rfl

theorem Pages.ne_nil {pages : List ρ} (h : Pages fetch s pages) : pages ≠ [] := by
  cases h with
  | last h => exact List.cons_ne_nil _ _
  | more h hnext => exact List.cons_ne_nil _ _

/-- **Collecting.**  A number of rounds comes to the end of a listing with some pages exactly
when these are the pages of the listing and the rounds are enough. -/
theorem collect_eq_iff {rounds : Nat} {pages : List ρ} :
    collect fetch rounds s = some (pages, none) ↔
      Pages fetch s pages ∧ pages.length ≤ rounds := by
  constructor
  · intro h
    induction rounds generalizing s pages with
    | zero => cases h
    | succ n ih =>
        cases hfetch : fetch s with
        | none =>
            rw [collect, hfetch] at h
            cases h
        | some result =>
            obtain ⟨page, next⟩ := result
            cases next with
            | none =>
                rw [collect_last hfetch] at h
                cases h
                exact ⟨.last hfetch, Nat.succ_le_succ (Nat.zero_le n)⟩
            | some next =>
                rw [collect_more hfetch] at h
                obtain ⟨⟨rest, state⟩, hrest, heq⟩ := Option.map_eq_some_iff.mp h
                cases heq
                obtain ⟨hpages, hlength⟩ := ih hrest
                exact ⟨.more hfetch hpages, Nat.succ_le_succ hlength⟩
  · intro ⟨h, hrounds⟩
    induction h generalizing rounds with
    | last h =>
        cases rounds with
        | zero => cases hrounds
        | succ n => exact collect_last h n
    | more h hnext ih =>
        cases rounds with
        | zero => cases hrounds
        | succ n =>
            rw [collect_more h, ih (Nat.le_of_succ_le_succ hrounds)]
            rfl

/-! ## Following another fetch -/

/-- Two states of two fetches go on together: in both there is no more, or states that
belong together. -/
def GoOn (together : σ → τ → Prop) : Option σ → Option τ → Prop
  | none, none => True
  | some s, some t => together s t
  | _, _ => False

/-- **A fetch that follows another one** finds the same pages. -/
theorem Pages.simulated {other : τ → Option (ρ × Option τ)} {together : σ → τ → Prop}
    (hfetch : ∀ s t, together s t → ∀ page next, fetch s = some (page, next) →
      ∃ next', other t = some (page, next') ∧ GoOn together next next')
    {pages : List ρ} (h : Pages fetch s pages) {t : τ} (ht : together s t) :
    Pages other t pages := by
  induction h generalizing t with
  | last h =>
      obtain ⟨next, hother, hnext⟩ := hfetch _ t ht _ _ h
      cases next with
      | none => exact .last hother
      | some next => exact hnext.elim
  | more h hpages ih =>
      obtain ⟨next, hother, hnext⟩ := hfetch _ t ht _ _ h
      cases next with
      | none => exact hnext.elim
      | some next => exact .more hother (ih hnext)

/-! ## No progress -/

/-- **The same page again and again**: where every state of a kind gives it and leads to
another such state, the loop does not come to an end. -/
theorem collect_of_invariant {stuck : σ → Prop} {page : ρ}
    (hfetch : ∀ s, stuck s → ∃ next, fetch s = some (page, some next) ∧ stuck next)
    (hs : stuck s) (rounds : Nat) :
    ∃ rest, collect fetch rounds s = some (List.replicate rounds page, some rest) := by
  induction rounds generalizing s with
  | zero => exact ⟨s, rfl⟩
  | succ n ih =>
      obtain ⟨next, hpage, hnext⟩ := hfetch s hs
      obtain ⟨rest, hrest⟩ := ih hnext
      refine ⟨rest, ?_⟩
      rw [collect_more hpage, hrest]
      rfl

end CursorPaging
