import EraChronology.Spec
import EraChronology.Text.NameMap
import EraChronology.Text.Numeral

set_option autoImplicit false

/-! # Supplemental eras

An era that is announced after the fact can be appended to a calendar from one line of text,
such as `name=NewEra,abbr=N,since=253374307200000`. The items are separated by commas and come
in any order; blanks around keys and values are dropped, and a key given twice has its last
value. The start is the first instant of the era.

A text that is no such line, or whose era does not fit into the table, changes nothing.
-/

namespace EraChronology.Supplement

open Text

/-- The key and the value of an item, without the blanks around them. -/
def item? (part : List Char) : Except Error (String × String) :=
  match cutFirst '=' part with
  | some (key, value) => .ok (String.ofList (trim key), String.ofList (trim value))
  | none => .error (.input (.malformedItem (String.ofList part)))

def items? (line : List Char) : Except Error (NameMap String) :=
  ((splitOn ',' line).mapM item?).map NameMap.ofList

def keys : List String := ["name", "abbr", "since"]

def eraOfItems? (items : NameMap String) : Except Error EraDef := do
  let unknown := items.names.filter fun key => key ∉ keys
  if unknown ≠ [] then throw (.input (.unknownKeys unknown))
  let name := (items.find? "name").getD ""
  let start := plainNumeral? ((items.find? "since").getD "").toList
  match start with
  | none => throw (.input .nameAndStart)
  | some numeral =>
    if name = "" then throw (.input .nameAndStart)
    else if ¬ numeral.isShort then throw (.input (.longNumeral numeral.digits.length))
    else EraDef.ofParts? name (some numeral.value) none ((items.find? "abbr").getD "")

/-- The era that a line of text announces. -/
def parse (line : String) : Except Error EraDef := do
  eraOfItems? (← items? line.toList)

end EraChronology.Supplement

namespace EraChronology

/-- The specification with the era that a line announces, or unchanged if the line is empty,
announces none, or announces one that does not fit. -/
def Spec.supplemented (spec : Spec) (line : String) : Spec :=
  if line = "" then spec
  else
    match Supplement.parse line with
    | .error _ => spec
    | .ok d =>
      match EraTable.ofDefs? spec.bound (spec.withEra d).eras with
      | .error _ => spec
      | .ok _ => spec.withEra d

end EraChronology
