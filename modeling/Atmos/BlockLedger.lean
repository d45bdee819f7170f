import Mathlib.Data.List.Perm.Basic
import Mathlib.Data.List.Range

/-!
# A ledger of heap blocks

Blocks are numbered in the order in which they are allocated.  A program allocates and frees
them, and holds the numbers of some.

* `Accounts` — every block that was allocated is held or freed, and only once;
* `Accounts.alloc`, `Accounts.free`, `Accounts.freeAll` — what the operations do to an account;
* `Accounts.all_freed_iff` — nothing is left exactly when nothing is held.
-/

namespace BlockLedger

/-- A heap, as far as it is known which blocks there are. -/
structure Heap where
  /-- the number of blocks that were allocated -/
  next : Nat
  /-- the blocks that were freed, the last one first -/
  freed : List Nat
  deriving DecidableEq, Repr

namespace Heap

def empty : Heap where
  next := 0
  freed := []

/-- `malloc` and `calloc`, where they succeed. -/
def alloc (heap : Heap) : Nat × Heap := (heap.next, { heap with next := heap.next + 1 })

/-- `free`: no result for a block that does not exist, or that was freed before. -/
def free (heap : Heap) (block : Nat) : Option Heap :=
  if block < heap.next ∧ block ∉ heap.freed then
    some { heap with freed := block :: heap.freed }
  else none

/-- Free some blocks, one after the other. -/
def freeAll (heap : Heap) (blocks : List Nat) : Option Heap := blocks.foldlM free heap

/-- `realloc`, where it succeeds and moves the block. -/
def realloc (heap : Heap) (block : Nat) : Option (Nat × Heap) := (heap.free block).map alloc

/-- Nothing is left on the heap. -/
def AllFreed (heap : Heap) : Prop := ∀ block < heap.next, block ∈ heap.freed

instance (heap : Heap) : Decidable heap.AllFreed :=
  inferInstanceAs (Decidable (∀ block < heap.next, block ∈ heap.freed))

end Heap

/-- Every block of the heap is held or freed, and only once. -/
def Accounts (heap : Heap) (held : List Nat) : Prop :=
  (List.range heap.next).Perm (held ++ heap.freed)

namespace Accounts

variable {heap heap' : Heap} {block : Nat} {blocks held held' : List Nat}

theorem empty : Accounts .empty [] := .refl _

theorem perm (h : Accounts heap held) (hheld : held.Perm held') : Accounts heap held' :=
  List.Perm.trans h (hheld.append_right _)

/-- A block is held if it exists and was not freed. -/
theorem mem_iff (h : Accounts heap held) :
    block ∈ held ↔ block < heap.next ∧ block ∉ heap.freed := by
  have hnodup : (held ++ heap.freed).Nodup := (List.Perm.nodup_iff h).mp List.nodup_range
  obtain ⟨-, -, hdistinct⟩ := List.nodup_append.mp hnodup
  have hmem : block < heap.next ↔ block ∈ held ∨ block ∈ heap.freed := by
    rw [← List.mem_range, List.Perm.mem_iff h, List.mem_append]
  constructor
  · intro hheld
    exact ⟨hmem.mpr (.inl hheld), fun hfreed => hdistinct _ hheld _ hfreed rfl⟩
  · rintro ⟨hlt, hfreed⟩
    exact (hmem.mp hlt).resolve_right hfreed

theorem alloc (h : Accounts heap held) : Accounts heap.alloc.2 (heap.alloc.1 :: held) := by
  change (List.range (heap.next + 1)).Perm (heap.next :: (held ++ heap.freed))
  rw [List.range_succ]
  exact (List.perm_append_singleton _ _).trans (h.cons _)

/-- A block that is held can be freed. -/
theorem free (h : Accounts heap (block :: held)) :
    ∃ heap', heap.free block = some heap' ∧ Accounts heap' held := by
  have hblock := h.mem_iff.mp List.mem_cons_self
  refine ⟨_, if_pos hblock, ?_⟩
  change (List.range heap.next).Perm (held ++ block :: heap.freed)
  exact List.Perm.trans h List.perm_middle.symm

/-- So can all that are. -/
theorem freeAll (h : Accounts heap (blocks ++ held)) :
    ∃ heap', heap.freeAll blocks = some heap' ∧ Accounts heap' held := by
  induction blocks generalizing heap with
  | nil => exact ⟨heap, rfl, h⟩
  | cons block blocks ih =>
      obtain ⟨next, hnext, haccounts⟩ := h.free
      obtain ⟨last, hlast, haccounts⟩ := ih haccounts
      refine ⟨last, ?_, haccounts⟩
      rw [Heap.freeAll, List.foldlM_cons, hnext]
      exact hlast

/-- A block that is held can be moved. -/
theorem realloc (h : Accounts heap (block :: held)) :
    ∃ moved heap', heap.realloc block = some (moved, heap') ∧ Accounts heap' (moved :: held) := by
  obtain ⟨next, hnext, haccounts⟩ := h.free
  refine ⟨next.alloc.1, next.alloc.2, ?_, haccounts.alloc⟩
  rw [Heap.realloc, hnext]
  rfl

/-- **Nothing is left** exactly when nothing is held. -/
theorem all_freed_iff (h : Accounts heap held) : heap.AllFreed ↔ held = [] := by
  constructor
  · intro hall
    apply List.eq_nil_iff_forall_not_mem.mpr
    intro block hheld
    obtain ⟨hlt, hfreed⟩ := h.mem_iff.mp hheld
    exact hfreed (hall block hlt)
  · rintro rfl block hlt
    by_contra hfreed
    exact absurd (h.mem_iff.mpr ⟨hlt, hfreed⟩) List.not_mem_nil

end Accounts

end BlockLedger
