import Mathlib.Data.List.Basic
import Atmos.PercentEncoding

/-!
# Query strings

The query of a URL is a list of parameters `name=value` with `&` between
them; the values are percent-encoded.

* `query` — the text of a list of parameters;
* `readQuery` — the text taken apart at every `&` and every `=`, and the
  values decoded; no result where a piece is not `name=value`;
* `readQuery_query` — nothing is lost and nothing is added, whatever the
  values hold;
* `notMem_query` — nor does a byte get in that would end the query.
-/

namespace QueryString

open ByteText PercentEncoding

abbrev ampersand : UInt8 := 38
abbrev question : UInt8 := 63
abbrev hash : UInt8 := 35

/-- The text of a parameter. -/
def parameter (p : CStr × CStr) : CStr := p.1 ++ equals :: encode p.2

/-- The text of a query. -/
def query (ps : List (CStr × CStr)) : CStr := [ampersand].intercalate (ps.map parameter)

/-- A piece of a query as a parameter. -/
def readParameter (piece : CStr) : Option (CStr × CStr) :=
  match piece.splitOn equals with
  | [name, value] => some (name, decode value)
  | _ => none

/-- The parameters of a query. -/
def readQuery (s : CStr) : Option (List (CStr × CStr)) := (s.splitOn ampersand).mapM readParameter

/-- A name that can stand in a query as it is. -/
def IsQueryName (name : CStr) : Prop := name.all unreserved = true

instance (name : CStr) : Decidable (IsQueryName name) :=
  inferInstanceAs (Decidable (name.all unreserved = true))

theorem IsQueryName.notMem {name : CStr} (h : IsQueryName name) {b : UInt8}
    (hb : unreserved b = false) : b ∉ name := by
  intro hmem
  rw [List.all_eq_true.mp h b hmem] at hb
  cases hb

/-- A byte that is neither unreserved nor used to write parameters. -/
theorem notMem_parameter {p : CStr × CStr} (hname : IsQueryName p.1) {b : UInt8}
    (hb : unreserved b = false) (hequals : b ≠ equals) (hpercent : b ≠ percent) :
    b ∉ parameter p := by
  intro hmem
  rcases List.mem_append.mp hmem with hmem | hmem
  · exact hname.notMem hb hmem
  · rcases List.mem_cons.mp hmem with heq | hmem
    · exact hequals heq
    · exact notMem_encode hb hpercent p.2 hmem

theorem readParameter_parameter {p : CStr × CStr} (hname : IsQueryName p.1) :
    readParameter (parameter p) = some p := by
  have hequals : equals ∉ p.1 := hname.notMem (by decide)
  have hvalue : equals ∉ encode p.2 := notMem_encode (by decide) (by decide) p.2
  have hpieces : (parameter p).splitOn equals = [p.1, encode p.2] := by
    rw [parameter, List.splitOn_append_cons_self_of_not_mem hequals,
      List.splitOn_eq_singleton hvalue]
  rw [readParameter, hpieces]
  exact congrArg (fun value => some (p.1, value)) (decode_encode p.2)

/-- **A query reads back**: the parameters that were written, once each and in
their order. -/
theorem readQuery_query {ps : List (CStr × CStr)} (hne : ps ≠ [])
    (hnames : ∀ p ∈ ps, IsQueryName p.1) : readQuery (query ps) = some ps := by
  have hpieces : ∀ piece ∈ ps.map parameter, ampersand ∉ piece := by
    intro piece hpiece
    obtain ⟨p, hp, rfl⟩ := List.mem_map.mp hpiece
    exact notMem_parameter (hnames p hp) (by decide) (by decide) (by decide)
  have hread : ∀ ps : List (CStr × CStr), (∀ p ∈ ps, IsQueryName p.1) →
      (ps.map parameter).mapM readParameter = some ps := by
    intro ps hnames
    induction ps with
    | nil => rfl
    | cons p ps ih =>
        have hrest := ih fun q hq => hnames q (List.mem_cons_of_mem p hq)
        rw [List.map_cons, List.mapM_cons, readParameter_parameter (hnames p (by simp)), hrest]
        rfl
  rw [readQuery, query, List.splitOn_intercalate ampersand hpieces (by simpa using hne)]
  exact hread ps hnames

theorem notMem_query {ps : List (CStr × CStr)} (hnames : ∀ p ∈ ps, IsQueryName p.1) {b : UInt8}
    (hb : unreserved b = false) (hequals : b ≠ equals) (hpercent : b ≠ percent)
    (hampersand : b ≠ ampersand) : b ∉ query ps := by
  have hpieces : ∀ piece ∈ ps.map parameter, b ∉ piece := by
    intro piece hpiece
    obtain ⟨p, hp, rfl⟩ := List.mem_map.mp hpiece
    exact notMem_parameter (hnames p hp) hb hequals hpercent
  rw [query]
  generalize ps.map parameter = pieces at hpieces
  induction pieces with
  | nil => exact List.not_mem_nil
  | cons piece pieces ih =>
      have hpiece := hpieces piece (by simp)
      cases pieces with
      | nil => simpa using hpiece
      | cons piece' pieces =>
          have hrest := ih fun q hq => hpieces q (List.mem_cons_of_mem piece hq)
          rw [List.intercalate_cons_cons]
          simp only [List.mem_append, List.mem_singleton, not_or]
          exact ⟨⟨hpiece, hampersand⟩, hrest⟩

end QueryString
