import Mathlib.Data.Nat.Find

/-!
# Pulled streams

A consumer calls a producer again and again, with a request of its own choice
each time, and takes what it is given until it is given nothing.

* `Serves` — a producer of some items, whatever is requested;
* `Serves.given_append` — what has been given and what is left are together
  these items;
* `Serves.exists_stop` — so a consumer that goes on until it is given nothing has
  been given all of them.
-/

namespace PulledStream

variable {σ ρ β : Type*} (pull : σ → ρ → List β × σ)

/-- The producer before a call, given the requests of all calls. -/
def stateAt (start : σ) (requests : Nat → ρ) : Nat → σ
  | 0 => start
  | k + 1 => (pull (stateAt start requests k) (requests k)).2

/-- What a call is given. -/
def pieceAt (start : σ) (requests : Nat → ρ) (k : Nat) : List β :=
  (pull (stateAt pull start requests k) (requests k)).1

/-- What the calls before one were given. -/
def given (start : σ) (requests : Nat → ρ) : Nat → List β
  | 0 => []
  | k + 1 => given start requests k ++ pieceAt pull start requests k

/-- In the states `ok`, a call with a request that `fits` takes a piece off the
items that are left, and is given nothing only when there are none. -/
structure Serves (ok : σ → Prop) (fits : ρ → Prop) (left : σ → List β) : Prop where
  keeps : ∀ {s r}, ok s → fits r → ok (pull s r).2
  splits : ∀ {s r}, ok s → fits r → (pull s r).1 ++ left (pull s r).2 = left s
  stops : ∀ {s r}, ok s → fits r → (pull s r).1 = [] → left s = []

section Calls

variable {pull} {ok : σ → Prop} {fits : ρ → Prop} {left : σ → List β}
  (h : Serves pull ok fits left) {start : σ} (hstart : ok start) {requests : Nat → ρ}
  (hfits : ∀ k, fits (requests k))

include h hstart hfits

/-- No call leaves the states. -/
theorem Serves.ok_stateAt (k : Nat) : ok (stateAt pull start requests k) := by
  induction k with
  | zero => exact hstart
  | succ k ih => exact h.keeps ih (hfits k)

/-- What has been given is what is gone. -/
theorem Serves.given_append (k : Nat) :
    given pull start requests k ++ left (stateAt pull start requests k) = left start := by
  induction k with
  | zero => rfl
  | succ k ih =>
      have hpiece : pieceAt pull start requests k ++ left (stateAt pull start requests (k + 1)) =
          left (stateAt pull start requests k) :=
        h.splits (h.ok_stateAt hstart hfits k) (hfits k)
      rw [given, List.append_assoc, hpiece, ih]

/-- **A consumer that goes on until it is given nothing** comes to an end, and has
been given everything. -/
theorem Serves.exists_stop :
    ∃ k, pieceAt pull start requests k = [] ∧
      (∀ j, j < k → pieceAt pull start requests j ≠ []) ∧
      given pull start requests k = left start := by
  have hsome : ∃ k, pieceAt pull start requests k = [] := by
    by_contra hnone
    rw [not_exists] at hnone
    -- each call would be given an item at least
    have hgrows : ∀ k, k ≤ (given pull start requests k).length := by
      intro k
      induction k with
      | zero => exact Nat.zero_le _
      | succ k ih =>
          have hpiece := List.length_pos_iff.mpr (hnone k)
          rw [given, List.length_append]
          omega
    have hall := congrArg List.length (h.given_append hstart hfits ((left start).length + 1))
    have hmany := hgrows ((left start).length + 1)
    rw [List.length_append] at hall
    omega
  classical
  refine ⟨Nat.find hsome, Nat.find_spec hsome, fun j hj => Nat.find_min hsome hj, ?_⟩
  have hleft := h.stops (h.ok_stateAt hstart hfits _) (hfits _) (Nat.find_spec hsome)
  have hall := h.given_append hstart hfits (Nat.find hsome)
  rwa [hleft, List.append_nil] at hall

end Calls

end PulledStream
