import EraChronology.Proofs.Text
import EraChronology.Report.MonthGrid

set_option autoImplicit false

/-! # The columns of a month grid

Each line of a grid has a margin of seven characters, and then seven columns of six characters with
a blank between them. Texts that are as wide as a column are found again in their columns, whatever
they are (`column_append_intercalate`). So the heading has the days of the week in its columns
(`column_heading`) and the lines of a row have the texts of its cells (`exists_rowLines`), as long
as the weeks in the margin have no more than two digits.
-/

namespace EraChronology

namespace Text

variable {s : String} {n : Int} {t : List Char} {ts : List (List Char)} {k width : Nat}

/-! ## Widths -/

theorem length_padRight (width : Nat) (s : String) :
    (padRight width s).length = max s.length width := by
  unfold padRight
  rw [String.length_append, String.length_ofList, List.length_replicate]
  omega

theorem length_padLeft (width : Nat) (s : String) :
    (padLeft width s).length = max s.length width := by
  unfold padLeft
  rw [String.length_append, String.length_ofList, List.length_replicate]
  omega

theorem length_fit (width : Nat) (s : String) : (fit width s).length = width := by
  unfold fit cut
  rw [if_pos (Int.natCast_nonneg width), length_padRight, String.length_ofList, List.length_take]
  omega

theorem fit_eq_padRight (h : s.length ≤ width) : fit width s = padRight width s := by
  have hwhole : s.toList.take width = s.toList :=
    List.take_of_length_le (String.length_toList ▸ h)
  unfold fit cut
  rw [if_pos (Int.natCast_nonneg width), Int.toNat_natCast, hwhole, String.ofList_toList]

theorem length_padNumber_two (h : 0 ≤ n ∧ n < 100) : (padNumber 2 n).length = 2 := by
  have hdigits : (toString n).length ≤ 2 := by
    rw [← String.length_toList, toList_toString_of_nonneg h.1, List.nil_append, ← Nat.toList_repr,
      String.length_toList, Nat.length_repr_le_iff (by decide)]
    omega
  unfold padNumber
  rw [length_padLeft]
  omega

/-! ## Parts of one width -/

/-- Parts of one width with a character between them come at equal distances. -/
theorem take_drop_intercalate (sep : Char) (hwidth : ∀ t ∈ ts, t.length = width)
    (ht : ts[k]? = some t) : (([sep].intercalate ts).drop ((width + 1) * k)).take width = t := by
  induction ts generalizing k with
  | nil => cases ht
  | cons first rest ih =>
      have hfirst : first.length = width := hwidth first List.mem_cons_self
      have hrest : ∀ t ∈ rest, t.length = width :=
        fun t ht => hwidth t (List.mem_cons_of_mem _ ht)
      cases k with
      | zero =>
          cases ht
          rw [Nat.mul_zero, List.drop_zero]
          cases rest with
          | nil => rw [List.intercalate_singleton, ← hfirst, List.take_length]
          | cons next rest =>
              rw [List.intercalate_cons_cons, List.append_assoc, List.take_left' hfirst]
      | succ k =>
          rw [List.getElem?_cons_succ] at ht
          cases rest with
          | nil => cases ht
          | cons next rest =>
              -- The later parts stand one stride further on.
              have hstride : (first ++ [sep]).length = width + 1 := by
                rw [List.length_append, hfirst, List.length_singleton]
              have hdistance : (width + 1) * (k + 1) =
                  (first ++ [sep]).length + (width + 1) * k := by
                rw [hstride, Nat.mul_succ, Nat.add_comm]
              rw [List.intercalate_cons_cons, hdistance, List.drop_length_add_append,
                ih hrest ht]

end Text

namespace MonthGrid

open Text

variable {row : GridRow} {m t : String} {ts : List String} {k : Nat}

/-! ## Lines -/

def margin (line : String) : String := String.ofList (line.toList.take 7)

/-- What stands in a column of a line, the columns being counted from 0. -/
def column (k : Nat) (line : String) : String :=
  String.ofList ((line.toList.drop (7 + 7 * k)).take 6)

theorem margin_append (hm : m.length = 7) (s : String) : margin (m ++ s) = m := by
  unfold margin
  rw [String.toList_append, List.take_left' (String.length_toList ▸ hm), String.ofList_toList]

/-- Texts of the width of a column are found in their columns. -/
theorem column_append_intercalate (hm : m.length = 7) (hts : ∀ t ∈ ts, t.length = 6)
    (ht : ts[k]? = some t) : column k (m ++ " ".intercalate ts) = t := by
  have hwidth : ∀ t ∈ ts.map String.toList, t.length = 6 := by
    intro t ht
    obtain ⟨s, hs, rfl⟩ := List.mem_map.mp ht
    rw [String.length_toList, hts s hs]
  have hk : (ts.map String.toList)[k]? = some t.toList := by
    rw [List.getElem?_map, ht]
    rfl
  have hmargin : 7 + 7 * k = m.toList.length + 7 * k := by rw [String.length_toList, hm]
  have hcolumn := take_drop_intercalate ' ' hwidth hk
  unfold column
  rw [hmargin, String.toList_append, List.drop_length_add_append, String.toList_intercalate]
  exact (congrArg String.ofList hcolumn).trans String.ofList_toList

/-! ## The heading -/

def shortDayName (dayOfWeek : Int) : String := shortDayNames.getD (dayOfWeek - 1).toNat ""

theorem length_shortDayName {d : Int} (h : 1 ≤ d ∧ d ≤ 7) : (shortDayName d).length = 2 := by
  have hnames : ∀ i < 7, (shortDayNames.getD i "").length = 2 := by decide
  exact hnames _ (by omega)

/-- The columns are headed by the days of a week, from the day that weeks start on. -/
theorem column_heading (firstDay : Int) (hk : k < 7) :
    column k (heading firstDay) = padRight 6 (shortDayName ((firstDay - 1 + k) % 7 + 1)) := by
  have hday : ∀ i : Nat, shortDayNames.getD ((firstDay - 1 + (i : Int)) % 7).toNat "" =
      shortDayName ((firstDay - 1 + i) % 7 + 1) := by
    intro i
    unfold shortDayName
    rw [Int.add_sub_cancel]
  unfold heading weekDays
  refine column_append_intercalate (by decide) ?_ ?_
  · intro t ht
    obtain ⟨name, hname, rfl⟩ := List.mem_map.mp ht
    obtain ⟨i, -, rfl⟩ := List.mem_map.mp hname
    rw [length_padRight, hday, length_shortDayName (by omega)]
    rfl
  · rw [List.getElem?_map, List.getElem?_map, List.getElem?_range hk]
    exact congrArg (fun name => some (padRight 6 name)) (hday k)

/-! ## Rows -/

theorem length_cellText (cell : Option EraDate) :
    (cellText cell).1.length = 6 ∧ (cellText cell).2.length = 6 := by
  cases cell <;> exact ⟨length_fit 6 _, length_fit 6 _⟩

/-- A row has two lines. The tag stands in the margin of the first, and the two texts of each cell
stand in the column of the cell. -/
theorem exists_rowLines (htag : (tagText row.tag).length = 7) :
    ∃ top bottom, rowLines row = [top, bottom] ∧ margin top = tagText row.tag ∧
      ∀ (k : Nat) cell, row.cells[k]? = some cell →
        column k top = (cellText cell).1 ∧ column k bottom = (cellText cell).2 := by
  have hblank : (padRight (tagText row.tag).length "").length = 7 := by
    rw [length_padRight, htag]
    rfl
  refine ⟨_, _, rfl, margin_append htag _, ?_⟩
  intro k cell hcell
  constructor
  · refine column_append_intercalate htag ?_ ?_
    · simp only [List.map_map, List.mem_map, Function.comp_apply]
      rintro t ⟨cell, -, rfl⟩
      exact (length_cellText cell).1
    · simp only [List.map_map, List.getElem?_map, hcell]
      rfl
  · refine column_append_intercalate hblank ?_ ?_
    · simp only [List.map_map, List.mem_map, Function.comp_apply]
      rintro t ⟨cell, -, rfl⟩
      exact (length_cellText cell).2
    · simp only [List.map_map, List.getElem?_map, hcell]
      rfl

end MonthGrid

end EraChronology
