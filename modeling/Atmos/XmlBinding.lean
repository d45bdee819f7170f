import Mathlib.Logic.Function.Basic
import Atmos.CivilTime
import Atmos.FixedMemory
import Atmos.FormattedText
import Atmos.XmlDocument

/-!
# Generated XML bindings

`c_impl.xsl` turns a schema into a struct for each complex type, with a function
`_unbind` that adds the members of a value to an element and a function `_bind`
that reads them back. Two families of templates write them: `xsd_type_unbind`
and `xsd_type_bind`. This module has a definition for each case of these that
the schema of the policies comes to.

* strings, alone as attributes and in arrays as elements;
* numbers and instants, with a companion `_set` where they are optional;
* booleans;
* the chain of `strcmp` that sends a child to its member.
-/

namespace Atmos

open ByteText CivilTime FixedMemory FormattedText XmlDocument

/-! ## Members -/

/-- An optional member of a simple type, with its companion `_set`. -/
structure Member (α : Type) where
  value : α
  set : Int32
  deriving DecidableEq, Repr

/-- The value of a member, if it is present. -/
def Member.present {α : Type} (m : Member α) : Option α :=
  if m.set ≠ 0 then some m.value else none

/-- What `memset` makes of a member. -/
def Member.init {α : Type} [OfNat α 0] : Member α := ⟨0, 0⟩

/-! ## Texts -/

/-- `snprintf(buffer, 255, "%" PRId64, n)` -/
def int64Text (n : Int64) : CStr := snprintf 255 (decimal n.toInt)

/-- What the C library leaves open. -/
structure TimePlatform where
  /-- the least number of digits of `%Y` -/
  yearWidth : Fin 5
  /-- what an uninitialised `struct tm` holds -/
  stack : BrokenDownTime

/-- `strftime(buffer, 255, "%FT%TZ", &tm)`, which always fits. -/
def strftime (platform : TimePlatform) (tm : BrokenDownTime) : CStr :=
  padded platform.yearWidth (1900 + tm.tmYear.toInt) ++ 45 :: padded 2 (1 + tm.tmMon.toInt) ++
    45 :: padded 2 tm.tmMday.toInt ++ 84 :: padded 2 tm.tmHour.toInt ++
    58 :: padded 2 tm.tmMin.toInt ++ 58 :: padded 2 tm.tmSec.toInt ++ [90]

/-- `gmtime_r` and `strftime`; where the first fails, the second gets a record
that was never written. -/
def dateTimeText (platform : TimePlatform) (time : Int64) : CStr :=
  strftime platform ((gmtimeR time).getD platform.stack)

/-- `"%d-%d-%dT%d:%d:%d%7s"` -/
def dateTimeFormat : List Directive :=
  [.int, .char 45, .int, .char 45, .int, .char 84, .int, .char 58, .int, .char 58, .int, .word 7]

/-- `datetime_parse`; the time zone is read and not used. -/
def datetimeParse (value : CStr) : Int64 :=
  let scan := sscanf dateTimeFormat value
  if scan.result = 0 then 0
  else timegm
    { tmSec := (scan.number 5 0).toInt32
      tmMin := (scan.number 4 0).toInt32
      tmHour := (scan.number 3 0).toInt32
      tmMday := (scan.number 2 0).toInt32
      tmMon := (scan.number 1 0).toInt32 - 1
      tmYear := (scan.number 0 1970).toInt32 - 1900 }

/-! ## From a value to XML -/

namespace Member

/-- An optional `xsd:int`, as an element. -/
def unbindInt (name : CStr) (m : Member Int64) : List Built :=
  if m.set ≠ 0 then [.value name (int64Text m.value)] else []

/-- An optional `xsd:dateTime`, as an element. -/
def unbindDateTime (platform : TimePlatform) (name : CStr) (m : Member Int64) : List Built :=
  if m.set ≠ 0 then [.value name (dateTimeText platform m.value)] else []

/-- An optional `xsd:boolean`, as an attribute. -/
def unbindBoolean (name : CStr) (m : Member Int32) : List (CStr × CStr) :=
  if m.set ≠ 0 then [(name, if m.value ≠ 0 then bytes "true" else bytes "false")] else []

/-- A required `xsd:int`, as an attribute: the companion is not looked at. -/
def unbindRequiredInt (name : CStr) (m : Member Int64) : List (CStr × CStr) :=
  [(name, int64Text m.value)]

end Member

/-- An `xsd:string`, as an attribute. -/
def unbindString (name : CStr) (s : Option CStr) : List (CStr × CStr) :=
  s.toList.map fun value => (name, value)

/-- An array of `xsd:string`, as elements; null pointers are left out. -/
def unbindStrings (name : CStr) (strings : List (Option CStr)) : List Built :=
  strings.filterMap fun s => s.map fun value => .value name value

/-! ## From XML to a value -/

namespace Member

/-- An optional `xsd:int`: `sscanf` is taken as a truth value. -/
def bindInt (m : Member Int64) (value : CStr) : Member Int64 :=
  let scan := sscanf [.int] value
  { value := scan.number 0 m.value
    set := if scan.result ≠ 0 then 1 else m.set }

/-- An optional `xsd:dateTime`. -/
def bindDateTime (value : CStr) : Member Int64 := ⟨datetimeParse value, 1⟩

/-- An optional `xsd:boolean`. -/
def bindBoolean (value : CStr) : Member Int32 := ⟨if value = bytes "true" then 1 else 0, 1⟩

end Member

/-- The loop over the children of an element. -/
def bindChildren {σ : Type} (step : σ → Tree → σ) (self : σ) (node : Tree) : σ :=
  node.children.foldl (fun self child => if child.isElement then step self child else self) self

theorem bindChildren_eq {σ : Type} (step : σ → Tree → σ) (self : σ) (node : Tree) :
    bindChildren step self node = node.elements.foldl step self := List.foldl_filter.symm

/-! ## Names -/

/-- The members of a type that are elements, in the order of the schema. -/
structure ChildNames (ι : Type) where
  all : List ι
  xmlName : ι → CStr
  complete : ∀ i, i ∈ all
  nodup : (all.map xmlName).Nodup
  isName : ∀ i, IsName (xmlName i)

/-- The chain of `strcmp` in `_bind`: the member of the first name that is the
name of the child. -/
def ChildNames.find {ι : Type} (names : ChildNames ι) (name : CStr) : Option ι :=
  names.all.find? fun i => names.xmlName i == name

/-! ## Arrays of strings -/

/-- All members of a type that are arrays of strings. -/
abbrev StringArrays (ι : Type) := ι → List (Option CStr)

namespace StringArrays

variable {ι : Type}

def init : StringArrays ι := fun _ => []

def unbind (names : ChildNames ι) (arrays : StringArrays ι) : List Built :=
  names.all.flatMap fun i => unbindStrings (names.xmlName i) (arrays i)

/-- A child goes to the end of its array; other children are skipped. -/
def bindChild [DecidableEq ι] (names : ChildNames ι) (arrays : StringArrays ι) (child : Tree) :
    StringArrays ι :=
  match names.find child.name with
  | some i => Function.update arrays i (arrays i ++ [some child.content])
  | none => arrays

end StringArrays

end Atmos
