import EraChronology.Proofs.Except
import EraChronology.Proofs.Text
import EraChronology.Supplement

set_option autoImplicit false

/-! # Announcements are read back

A line of items, with blanks around the keys and the values, is read as the bindings of the items
(`items?_line`): the keys have no `=`, so each item is cut where its key ends, and a value may have
one. When the items bind the name, the start and perhaps the abbreviation of an era, in any order,
the line announces this era (`parse_announcement`). Only a start whose decimal has too many digits
is refused.
-/

namespace EraChronology.Supplement

open Text

/-! ## Lines -/

/-- Blanks around a key or a value. -/
abbrev Margin := { cs : List Char // cs.all isBlank = true }

theorem Margin.not_mem (m : Margin) {c : Char} (h : isBlank c = false) : c ∉ m.val := by
  intro hc
  have hblank := List.all_eq_true.mp m.property c hc
  rw [h] at hblank
  cases hblank

structure Item where
  key : String
  value : String
  beforeKey : Margin
  afterKey : Margin
  beforeValue : Margin
  afterValue : Margin

namespace Item

def chars (i : Item) : List Char :=
  (i.beforeKey.val ++ i.key.toList ++ i.afterKey.val) ++
    '=' :: (i.beforeValue.val ++ i.value.toList ++ i.afterValue.val)

def binding (i : Item) : String × String := (i.key, i.value)

end Item

/-- The items one after another, with commas between them. -/
def line (items : List Item) : String := String.ofList ([','].intercalate (items.map Item.chars))

/-- A text that can be the value of an item: it does not end the item, and it has no blanks at its
ends, which would be taken for the ones around it. -/
structure IsPlain (s : String) : Prop where
  no_comma : ',' ∉ s.toList
  trimmed : IsTrimmed s.toList

/-- A text that can be the key of an item: it does not end the key either. -/
structure IsKey (s : String) : Prop extends IsPlain s where
  no_equals : '=' ∉ s.toList

namespace Item

variable {i : Item}

theorem item?_chars (hkey : IsKey i.key) (hvalue : IsPlain i.value) :
    item? i.chars = .ok i.binding := by
  have hbefore : '=' ∉ i.beforeKey.val ++ i.key.toList ++ i.afterKey.val := by
    rw [List.mem_append, List.mem_append, not_or, not_or]
    exact ⟨⟨i.beforeKey.not_mem rfl, hkey.no_equals⟩, i.afterKey.not_mem rfl⟩
  unfold item? chars
  rw [cutFirst_append_cons hbefore]
  show Except.ok (String.ofList (trim _), String.ofList (trim _)) = _
  rw [trim_append hkey.trimmed i.beforeKey.property i.afterKey.property,
    trim_append hvalue.trimmed i.beforeValue.property i.afterValue.property,
    String.ofList_toList, String.ofList_toList]
  rfl

theorem comma_not_mem_chars (hkey : IsKey i.key) (hvalue : IsPlain i.value) : ',' ∉ i.chars := by
  unfold chars
  simp only [List.mem_append, List.mem_cons, not_or]
  exact ⟨⟨⟨i.beforeKey.not_mem rfl, hkey.no_comma⟩, i.afterKey.not_mem rfl⟩, by decide,
    ⟨i.beforeValue.not_mem rfl, hvalue.no_comma⟩, i.afterValue.not_mem rfl⟩

end Item

variable {items : List Item}

/-- A line is read as the bindings of its items. -/
theorem items?_line (hne : items ≠ []) (hkeys : ∀ i ∈ items, IsKey i.key)
    (hvalues : ∀ i ∈ items, IsPlain i.value) :
    items? (line items).toList = .ok (NameMap.ofList (items.map Item.binding)) := by
  have hcommas : ∀ part ∈ items.map Item.chars, ',' ∉ part := by
    intro part hpart
    obtain ⟨i, hi, rfl⟩ := List.mem_map.mp hpart
    exact Item.comma_not_mem_chars (hkeys i hi) (hvalues i hi)
  have hread : (items.map Item.chars).mapM item? = .ok (items.map Item.binding) := by
    rw [List.mapM_map]
    exact mapM_eq_ok_map fun i hi => Item.item?_chars (hkeys i hi) (hvalues i hi)
  unfold items? line
  rw [String.toList_ofList, splitOn_intercalate (by simpa using hne) hcommas, hread]
  rfl

/-! ## Announcements -/

/-- The bindings that announce an era. The abbreviation may be left out. -/
def announcement (name : String) (abbr : Option String) (n : Int) : List (String × String) :=
  ("name", name) :: ("since", toString n) :: (abbr.map fun abbr => ("abbr", abbr)).toList

/-- What an announcement is read as: the era, or the fault that the decimal of its start is too long
to be read. -/
def announced (name : String) (abbr : Option String) (n : Int) (hname : name ≠ "") :
    Except Error EraDef :=
  if n.natAbs.repr.length ≤ digitLimit then .ok ⟨name, some n, none, abbr.getD "", hname⟩
  else .error (.input (.longNumeral n.natAbs.repr.length))

section

variable {name : String} {abbr : Option String} {n : Int} {key value : String}

theorem nodup_announcement : ((announcement name abbr n).map Prod.fst).Nodup := by
  cases abbr with
  | none =>
      show ["name", "since"].Nodup
      decide
  | some abbr =>
      show ["name", "since", "abbr"].Nodup
      decide

theorem mem_announcement_iff : (key, value) ∈ announcement name abbr n ↔
    key = "name" ∧ value = name ∨ key = "since" ∧ value = toString n ∨
      key = "abbr" ∧ abbr = some value := by
  cases abbr with
  | none => simp [announcement]
  | some abbr => simp [announcement, eq_comm]

theorem mem_keys_of_mem_announcement (h : (key, value) ∈ announcement name abbr n) :
    key ∈ keys := by
  rcases mem_announcement_iff.mp h with ⟨rfl, -⟩ | ⟨rfl, -⟩ | ⟨rfl, -⟩
  · decide
  · decide
  · decide

theorem isKey_of_mem_keys (h : key ∈ keys) : IsKey key := by
  have hcases : key = "name" ∨ key = "abbr" ∨ key = "since" := by simpa [keys] using h
  rcases hcases with rfl | rfl | rfl
  all_goals exact
    { no_comma := by decide, trimmed := ⟨by decide, by decide⟩, no_equals := by decide }

theorem isPlain_of_mem_announcement (hname : IsPlain name) (habbr : ∀ a ∈ abbr, IsPlain a)
    (h : (key, value) ∈ announcement name abbr n) : IsPlain value := by
  rcases mem_announcement_iff.mp h with ⟨-, rfl⟩ | ⟨-, rfl⟩ | ⟨-, hvalue⟩
  · exact hname
  · exact { no_comma := comma_not_mem_toString n, trimmed := isTrimmed_toString n }
  · exact habbr value hvalue

/-- The map of bindings that announce an era, in any order. -/
theorem eraOfItems?_of_perm {bindings : List (String × String)}
    (h : bindings.Perm (announcement name abbr n)) (hname : name ≠ "") :
    eraOfItems? (NameMap.ofList bindings) = announced name abbr n hname := by
  have hnodup : (bindings.map Prod.fst).Nodup :=
    (h.map Prod.fst).nodup_iff.mpr nodup_announcement
  have hfind : ∀ {key value}, (key, value) ∈ announcement name abbr n →
      (NameMap.ofList bindings).find? key = some value :=
    fun hmem => NameMap.find?_ofList hnodup (h.mem_iff.mpr hmem)
  have hfindName := hfind (mem_announcement_iff.mpr (Or.inl ⟨rfl, rfl⟩))
  have hfindSince := hfind (mem_announcement_iff.mpr (Or.inr (Or.inl ⟨rfl, rfl⟩)))
  have hfindAbbr : (NameMap.ofList bindings).find? "abbr" = abbr := by
    cases abbr with
    | none =>
        refine NameMap.find?_ofList_eq_none ?_
        rw [(h.map Prod.fst).mem_iff]
        show "abbr" ∉ ["name", "since"]
        decide
    | some abbr => exact hfind (mem_announcement_iff.mpr (Or.inr (Or.inr ⟨rfl, rfl⟩)))
  -- The map has only the names that are bound, so none of them is unknown.
  have hunknown : (NameMap.ofList bindings).names.filter (fun key => key ∉ keys) = [] := by
    rw [List.filter_eq_nil_iff]
    intro key hkey
    obtain ⟨⟨key, value⟩, hmem, rfl⟩ := List.mem_map.mp (NameMap.mem_map_fst_of_mem_names hkey)
    simpa using mem_keys_of_mem_announcement (h.mem_iff.mp hmem)
  have hparts : EraDef.ofParts? name (some n) none (abbr.getD "") =
      .ok ⟨name, some n, none, abbr.getD "", hname⟩ := dif_pos hname
  unfold eraOfItems? announced
  simp only [hunknown, hfindName, hfindSince, hfindAbbr, Option.getD_some,
    plainNumeral?_toString, value_numeralOf, length_numeralOf, isShort_numeralOf, hname, hparts]
  rw [if_neg (not_not_intro rfl), if_neg not_false, ite_not]
  rfl

/-- A line that announces an era, whatever the order of its items and the blanks in it. -/
theorem parse_line_of_perm {items : List Item}
    (h : (items.map Item.binding).Perm (announcement name abbr n)) (hname : name ≠ "")
    (hplain : IsPlain name) (habbr : ∀ a ∈ abbr, IsPlain a) :
    parse (line items) = announced name abbr n hname := by
  have hmem : ∀ i ∈ items, i.binding ∈ announcement name abbr n :=
    fun i hi => h.mem_iff.mp (List.mem_map_of_mem hi)
  have hne : items ≠ [] := by
    rintro rfl
    cases h.length_eq
  have hread := items?_line hne
    (fun i hi => isKey_of_mem_keys (mem_keys_of_mem_announcement (hmem i hi)))
    (fun i hi => isPlain_of_mem_announcement hplain habbr (hmem i hi))
  calc parse (line items)
      = (Except.ok (NameMap.ofList (items.map Item.binding)) >>= eraOfItems?) :=
          congrArg (· >>= eraOfItems?) hread
    _ = eraOfItems? (NameMap.ofList (items.map Item.binding)) := rfl
    _ = announced name abbr n hname := eraOfItems?_of_perm h hname

/-- **An announcement is read as it was written**, in whatever order its items are and whatever
blanks stand around their keys and values; the name and the abbreviation may have an `=`. Only a
start of too many digits is refused, and the fault tells how many there are. -/
theorem parse_announcement {items : List Item}
    (h : (items.map Item.binding).Perm (announcement name abbr n)) (hname : name ≠ "")
    (hplain : IsPlain name) (habbr : ∀ a ∈ abbr, IsPlain a) :
    (n.natAbs.repr.length ≤ digitLimit →
        parse (line items) = .ok ⟨name, some n, none, abbr.getD "", hname⟩) ∧
      (digitLimit < n.natAbs.repr.length →
        parse (line items) = .error (.input (.longNumeral n.natAbs.repr.length))) := by
  rw [parse_line_of_perm h hname hplain habbr]
  exact ⟨fun hshort => if_pos hshort, fun hlong => if_neg (Nat.not_le.mpr hlong)⟩

end

/-- An announcement in an unusual order, with blanks around some parts and an `=` in the name. -/
def newEraItems : List Item :=
  let bare : Margin := ⟨[], by decide⟩
  let wide : Margin := ⟨[' ', '\u3000'], by decide⟩
  [⟨"since", "253374307200000", wide, bare, bare, bare⟩,
    ⟨"name", "New = Era", bare, wide, bare, bare⟩, ⟨"abbr", "N", bare, bare, wide, wide⟩]

theorem parse_announcement_newEra :
    line newEraItems =
        " \u3000since=253374307200000,name \u3000=New = Era,abbr= \u3000N \u3000" ∧
      parse (line newEraItems) =
        .ok ⟨"New = Era", some 253374307200000, none, "N", by decide⟩ := by
  have hitems : (newEraItems.map Item.binding).Perm
      (announcement "New = Era" (some "N") 253374307200000) := by decide
  have hname : IsPlain "New = Era" := ⟨by decide, by decide, by decide⟩
  have habbr : ∀ a ∈ some "N", IsPlain a := by
    intro a ha
    rw [← Option.some.inj ha]
    exact ⟨by decide, by decide, by decide⟩
  exact ⟨by decide, (parse_announcement hitems (by decide) hname habbr).1 (by decide)⟩

/-- The first instant of a day, a number of one digit more than are read. -/
def farStart : Int := Int.ofNat (864 * Nat.pow 10 4298)

def farItems : List Item :=
  let bare : Margin := ⟨[], by decide⟩
  [⟨"name", "N", bare, bare, bare, bare⟩, ⟨"since", toString farStart, bare, bare, bare, bare⟩]

theorem parse_announcement_far :
    (farItems.map Item.binding).Perm (announcement "N" none farStart) ∧
      parse (line farItems) = .error (.input (.longNumeral 4301)) := by
  have hitems : (farItems.map Item.binding).Perm (announcement "N" none farStart) :=
    List.Perm.refl _
  have hlength : farStart.natAbs.repr.length = 4301 := by
    have hlower : ¬ farStart.natAbs.repr.length ≤ 4300 := by
      rw [Nat.length_repr_le_iff (by decide)]
      decide +kernel
    have hupper : farStart.natAbs.repr.length ≤ 4301 := by
      rw [Nat.length_repr_le_iff (by decide)]
      decide +kernel
    omega
  refine ⟨hitems, ?_⟩
  rw [parse_line_of_perm hitems (by decide) ⟨by decide, by decide, by decide⟩ (by simp), announced,
    hlength]
  rfl

end EraChronology.Supplement
