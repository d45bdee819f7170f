import Mathlib.Data.List.TakeWhile

/-!
# Files read in pieces

A `FILE` open for reading, as far as a program that reads it once from its
current position depends on it.  How many bytes a call of `fread` delivers is
not up to the caller: the stream carries the limits of the coming calls.

* `fread_remaining` — what a call delivers and what is left are together what
  was left before;
* `remaining_fread_lt` — a call that delivers something moves on;
* `flatten_readPieces` — the pieces of a loop around `fread` are together the
  bytes ahead, up to the number that was asked for;
* `AtCall.done` — what has come at each of its calls.
-/

/-- A stream: what the file holds, where the reader is, whether the position
can be asked for and set, and the most that each of the coming calls of
`fread` delivers (no limit behind the end of the list). -/
structure FileStream where
  bytes : List UInt8
  position : Nat
  tells : Bool
  seeks : Bool
  limits : List Nat
  deriving DecidableEq, Repr

namespace FileStream

/-- The bytes ahead. -/
def remaining (f : FileStream) : List UInt8 := f.bytes.drop f.position

/-- `ftello`, where `none` is the result `-1`. -/
def ftello (f : FileStream) : Option Nat := if f.tells then some f.position else none

/-- `fseeko` with `SEEK_SET`, where `none` is the result `-1`. -/
def fseeko (f : FileStream) (position : Nat) : Option FileStream :=
  if f.seeks then some { f with position } else none

/-- `fread` of single bytes into a buffer of `n`. -/
def fread (f : FileStream) (n : Nat) : List UInt8 × FileStream :=
  let data := f.remaining.take (min n (f.limits.headD n))
  (data, { f with position := f.position + data.length, limits := f.limits.tail })

theorem fread_remaining (f : FileStream) (n : Nat) :
    (f.fread n).1 ++ (f.fread n).2.remaining = f.remaining := by
  have hprefix : (f.fread n).1 <+: f.remaining := List.take_prefix _ _
  have hbehind : (f.fread n).2.remaining = f.remaining.drop (f.fread n).1.length := by
    rw [remaining, remaining, List.drop_drop]
    rfl
  rw [hbehind]
  exact List.prefix_iff_eq_append.mp hprefix

/-- A call that delivers something leaves less ahead. -/
theorem remaining_fread_lt {f : FileStream} {n : Nat} (h : (f.fread n).1 ≠ []) :
    (f.fread n).2.remaining.length < f.remaining.length := by
  have hparts := congrArg List.length (f.fread_remaining n)
  have hpos := List.length_pos_iff.mpr h
  rw [List.length_append] at hparts
  omega

theorem length_fread_le (f : FileStream) (n : Nat) : (f.fread n).1.length ≤ n := by
  have htake := List.length_take_le (min n (f.limits.headD n)) f.remaining
  have hmin := Nat.min_le_left n (f.limits.headD n)
  exact htake.trans hmin

/-! ## Reading in pieces -/

/-- Call `fread` until `count` bytes have come or a call delivers nothing.  How
much a call asks for depends on how much has come; there is at least one call.
The result holds what each call delivered. -/
def readPieces (size : Int → Nat) (count : Int) (f : FileStream) (read : Int) :
    List (List UInt8) × FileStream :=
  if h : (f.fread (size read)).1 = [] then ([], (f.fread (size read)).2)
  else
    have := remaining_fread_lt h
    let read' := read + (f.fread (size read)).1.length
    if read' < count then
      let behind := readPieces size count (f.fread (size read)).2 read'
      ((f.fread (size read)).1 :: behind.1, behind.2)
    else ([(f.fread (size read)).1], (f.fread (size read)).2)
  termination_by f.remaining.length

/-- Another reader of the same file, `n` bytes further on. -/
structure Ahead (f : FileStream) (n : Nat) (f' : FileStream) : Prop where
  bytes : f'.bytes = f.bytes
  position : f'.position = f.position + n
  tells : f'.tells = f.tells
  seeks : f'.seeks = f.seeks

theorem ahead_fread (f : FileStream) (n : Nat) :
    f.Ahead (f.fread n).1.length (f.fread n).2 where
  bytes := rfl
  position := rfl
  tells := rfl
  seeks := rfl

theorem Ahead.trans {f f' f'' : FileStream} {n n' : Nat} (h : f.Ahead n f')
    (h' : f'.Ahead n' f'') : f.Ahead (n + n') f'' where
  bytes := h'.bytes.trans h.bytes
  position := by rw [h'.position, h.position, Nat.add_assoc]
  tells := h'.tells.trans h.tells
  seeks := h'.seeks.trans h.seeks

/-- Going back to where a reader was before. -/
theorem Ahead.fseeko {f f' : FileStream} {n : Nat} (h : f.Ahead n f') (hseeks : f.seeks = true) :
    f'.fseeko f.position = some { f with limits := f'.limits } := by
  obtain ⟨bytes, position, tells, seeks, limits⟩ := f'
  obtain ⟨rfl, -, rfl, rfl⟩ := h
  exact if_pos hseeks

/-- Reading in pieces only moves on, by what was delivered. -/
theorem ahead_readPieces (size : Int → Nat) (count : Int) (f : FileStream) (read : Int) :
    f.Ahead (f.readPieces size count read).1.flatten.length (f.readPieces size count read).2 := by
  fun_induction readPieces size count f read with
  | case1 f read hnil =>
      have hfread := f.ahead_fread (size read)
      rwa [hnil] at hfread
  | case2 f read hsome _ read' hmore behind ih =>
      rw [List.flatten_cons, List.length_append]
      exact (f.ahead_fread (size read)).trans ih
  | case3 f read hsome _ read' hdone =>
      rw [List.flatten_singleton]
      exact f.ahead_fread (size read)

/-- Nothing comes exactly when the first call delivers nothing. -/
theorem flatten_readPieces_eq_nil {size : Int → Nat} {count : Int} {f : FileStream} {read : Int} :
    (f.readPieces size count read).1.flatten = [] ↔ (f.fread (size read)).1 = [] := by
  rw [readPieces]
  by_cases hnil : (f.fread (size read)).1 = []
  · simp [hnil]
  · rw [dif_neg hnil]
    dsimp only
    split <;> simp [hnil]

/-- All pieces but the last lie before `count`, and the last one is no longer
than what a call asks for. -/
theorem length_flatten_readPieces_le {size : Int → Nat} {most : Nat}
    (hsize : ∀ read, 0 ≤ read → size read ≤ most) (count : Int) (f : FileStream) {read : Int}
    (hread : 0 ≤ read) :
    (f.readPieces size count read).1.flatten.length ≤ (count - read).toNat + most := by
  fun_induction readPieces size count f read with
  | case1 f read hnil => exact Nat.zero_le _
  | case2 f read hsome _ read' hmore behind ih =>
      have hthere : read' = read + (f.fread (size read)).1.length := rfl
      have hbehind : behind.1.flatten.length ≤ (count - read').toNat + most := ih (by omega)
      rw [List.flatten_cons, List.length_append]
      omega
  | case3 f read hsome _ read' hdone =>
      have hpiece := (f.length_fread_le (size read)).trans (hsize read hread)
      rw [List.flatten_singleton]
      omega

/-- Every call delivers something as long as something is ahead. -/
def Delivers (f : FileStream) : Prop := ∀ limit ∈ f.limits, 0 < limit

theorem Delivers.fread {f : FileStream} (h : f.Delivers) (n : Nat) : (f.fread n).2.Delivers :=
  fun limit hlimit => h limit (List.mem_of_mem_tail hlimit)

/-- A call that delivers nothing was asked for nothing, or is at the end. -/
theorem Delivers.fread_eq_nil {f : FileStream} (h : f.Delivers) {n : Nat}
    (hnil : (f.fread n).1 = []) : n = 0 ∨ f.remaining = [] := by
  have htake : f.remaining.take (min n (f.limits.headD n)) = [] := hnil
  rcases List.take_eq_nil_iff.mp htake with hzero | hend
  · left
    cases hlimits : f.limits with
    | nil =>
        rw [hlimits, List.headD_nil, Nat.min_self] at hzero
        exact hzero
    | cons limit limits =>
        have hpos : 0 < limit := h limit (by rw [hlimits]; exact List.mem_cons_self ..)
        rw [hlimits, List.headD_cons] at hzero
        omega
  · exact Or.inr hend

/-- **Reading in pieces reads what was asked for.**  The pieces are together
the bytes ahead, up to `count`, whatever the calls deliver: if a call asks for
something while bytes are missing, and never for more than is missing. -/
theorem flatten_readPieces {size : Int → Nat} {count : Int}
    (hsize : ∀ read, 0 ≤ read → read ≤ count →
      size read ≤ (count - read).toNat ∧ (read < count → 0 < size read))
    {f : FileStream} (h : f.Delivers) {read : Int} (hread : 0 ≤ read) (hcount : read ≤ count) :
    (f.readPieces size count read).1.flatten = f.remaining.take (count - read).toNat := by
  fun_induction readPieces size count f read with
  | case1 f read hnil =>
      rcases h.fread_eq_nil hnil with hzero | hend
      · have hdone : ¬ read < count := by
          intro hmore
          have hpos := (hsize read hread hcount).2 hmore
          omega
        have hnone : (count - read).toNat = 0 := by omega
        rw [hnone]
        rfl
      · rw [hend, List.take_nil]
        rfl
  | case2 f read hsome _ read' hmore behind ih =>
      have hlength := (f.length_fread_le (size read)).trans (hsize read hread hcount).1
      have hthere : read' = read + (f.fread (size read)).1.length := rfl
      have hleft : (count - read).toNat =
          (f.fread (size read)).1.length + (count - read').toNat := by omega
      rw [List.flatten_cons, ih (h.fread _) (by omega) (by omega), hleft,
        ← f.fread_remaining (size read), List.take_length_add_append]
  | case3 f read hsome _ read' hdone =>
      have hlength := (f.length_fread_le (size read)).trans (hsize read hread hcount).1
      have hthere : read' = read + (f.fread (size read)).1.length := rfl
      have hleft : (count - read).toNat = (f.fread (size read)).1.length := by omega
      rw [List.flatten_singleton, hleft, ← f.fread_remaining (size read), List.take_left]

/-! ## The calls of the loop -/

/-- When a call is made: the reader, and how much has come. -/
inductive AtCall (size : Int → Nat) (count : Int) (f : FileStream) : FileStream → Int → Prop where
  | first : AtCall size count f f 0
  | next {g : FileStream} {read : Int} : AtCall size count f g read →
      (g.fread (size read)).1 ≠ [] → read + (g.fread (size read)).1.length < count →
      AtCall size count f (g.fread (size read)).2 (read + (g.fread (size read)).1.length)

section Calls

variable {size : Int → Nat} {count : Int} {f g : FileStream} {read : Int}

/-- No call is made after `count` bytes have come. -/
theorem AtCall.within (h : f.AtCall size count g read) (hcount : 0 ≤ count) :
    0 ≤ read ∧ read ≤ count := by
  induction h with
  | first => exact ⟨Int.le_refl 0, hcount⟩
  | @next g read hcall hsome hmore ih => omega

/-- The pieces that have come are the first ones, and the bytes ahead are the
others. -/
theorem AtCall.done (h : f.AtCall size count g read) :
    ∃ done : List (List UInt8),
      f.readPieces size count 0 =
        (done ++ (g.readPieces size count read).1, (g.readPieces size count read).2) ∧
      (done.flatten.length : Int) = read ∧ done.flatten ++ g.remaining = f.remaining := by
  induction h with
  | first => exact ⟨[], rfl, rfl, rfl⟩
  | @next g read hcall hsome hmore ih =>
      obtain ⟨done, hpieces, hread, hahead⟩ := ih
      refine ⟨done ++ [(g.fread (size read)).1], ?_, ?_, ?_⟩
      · rw [hpieces, readPieces, dif_neg hsome]
        dsimp only
        rw [if_pos hmore, List.append_assoc, List.singleton_append]
      · rw [List.flatten_append, List.flatten_singleton, List.length_append]
        omega
      · rw [List.flatten_append, List.flatten_singleton, List.append_assoc, g.fread_remaining,
          hahead]

/-- **The loop ends**: one of its calls is the last. -/
theorem AtCall.exists_last (h : f.AtCall size count g read) :
    ∃ g' read', f.AtCall size count g' read' ∧ ((g'.fread (size read')).1 = [] ∨
      count ≤ read' + (g'.fread (size read')).1.length) := by
  fun_induction readPieces size count g read with
  | case1 g read hnil => exact ⟨g, read, h, Or.inl hnil⟩
  | case2 g read hsome _ read' hmore behind ih => exact ih (h.next hsome hmore)
  | case3 g read hsome _ read' hdone => exact ⟨g, read, h, Or.inr (Int.not_lt.mp hdone)⟩

end Calls

end FileStream
