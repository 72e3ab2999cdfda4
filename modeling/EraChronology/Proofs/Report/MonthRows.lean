import EraChronology.Report.MonthGrid

set_option autoImplicit false

/-! # The rows of a month grid

Laid out one after the other, the days fill rows of seven. After any number of cells the complete
rows are the cells cut into sevens, and the row under way is what remains (`Layout.ofCells`). One
more day leads from one such layout to the next (`Layout.addTagged_ofCells`), so a run of days does
as well (`Layout.foldl_addTagged_ofCells`). At the end, empty cells complete the last row
(`Layout.finish_ofCells`).

So the cells of a grid are the days with fewer than seven empty cells on either side
(`exists_cells_eq`). Cut into rows of seven they are still the same cells in the same order
(`flatten_rowsOfSeven`), and the cell in column `k` of row `i` is cell `7 * i + k` (`getElem?_row`).
As no more than six cells are empty at either end, every row has a day
(`exists_first_of_mem_rows`).
-/

namespace EraChronology.MonthGrid

/-- A list cut into rows of seven. What remains at the end is no row. -/
def rowsOfSeven {α : Type} (l : List α) : List (List α) :=
  (List.range (l.length / 7)).map fun i => (l.drop (7 * i)).take 7

def remainder {α : Type} (l : List α) : List α := l.drop (7 * (l.length / 7))

/-- The cells of a grid: empty ones before the days, and as many after them as fill the last
row. -/
def cells {α : Type} (before : Nat) (days : List α) : List (Option α) :=
  let after := (7 - (before + days.length) % 7) % 7
  List.replicate before none ++ days.map some ++ List.replicate after none

variable {α : Type} {l l' row : List α} {days : List α} {a : α} {before i k n : Nat}

/-! ## Rows of seven -/

theorem mem_rowsOfSeven_iff :
    row ∈ rowsOfSeven l ↔ ∃ i, 7 * i + 7 ≤ l.length ∧ (l.drop (7 * i)).take 7 = row := by
  have hrows : ∀ i, i < l.length / 7 ↔ 7 * i + 7 ≤ l.length := by
    intro i
    omega
  simp only [rowsOfSeven, List.mem_map, List.mem_range, hrows]

theorem length_of_mem_rowsOfSeven (hrow : row ∈ rowsOfSeven l) : row.length = 7 := by
  obtain ⟨i, hi, rfl⟩ := mem_rowsOfSeven_iff.mp hrow
  rw [List.length_take, List.length_drop]
  omega

theorem length_remainder : (remainder l).length = l.length % 7 := by
  unfold remainder
  rw [List.length_drop]
  omega

theorem rowsOfSeven_of_length_lt (h : l.length < 7) : rowsOfSeven l = [] := by
  rw [rowsOfSeven, Nat.div_eq_of_lt h, List.range_zero, List.map_nil]

theorem remainder_of_length_lt (h : l.length < 7) : remainder l = l := by
  rw [remainder, Nat.div_eq_of_lt h, Nat.mul_zero, List.drop_zero]

/-- The place of a cell of a row among all cells. -/
theorem getElem?_row (hk : k < 7) : ((l.drop (7 * i)).take 7)[k]? = l[7 * i + k]? := by
  rw [List.getElem?_take_of_lt hk, List.getElem?_drop]

theorem drop_append_rows (l l' : List α) :
    (l ++ l').drop (7 * (l.length / 7)) = remainder l ++ l' :=
  List.drop_append_of_le_length (by omega)

/-- More at the end does not change the rows before it. -/
theorem map_row_append (l l' : List α) :
    (List.range (l.length / 7)).map (fun i => ((l ++ l').drop (7 * i)).take 7) =
      rowsOfSeven l := by
  apply List.map_congr_left
  intro i hi
  have hlt := List.mem_range.mp hi
  have hrow : 7 ≤ (l.drop (7 * i)).length := by
    rw [List.length_drop]
    omega
  rw [List.drop_append_of_le_length (by omega), List.take_append_of_le_length hrow]

section

variable (h : (remainder l).length + l'.length = 7)
include h

/-- What remains becomes a row when there are seven cells of it. -/
theorem rowsOfSeven_append : rowsOfSeven (l ++ l') = rowsOfSeven l ++ [remainder l ++ l'] := by
  have hcount : (l ++ l').length / 7 = l.length / 7 + 1 := by
    rw [length_remainder] at h
    rw [List.length_append]
    omega
  have hseven : (remainder l ++ l').length = 7 := by rwa [List.length_append]
  calc rowsOfSeven (l ++ l')
      = (List.range (l.length / 7)).map (fun i => ((l ++ l').drop (7 * i)).take 7) ++
          [((l ++ l').drop (7 * (l.length / 7))).take 7] := by
        rw [rowsOfSeven, hcount, List.range_succ, List.map_append, List.map_singleton]
    _ = rowsOfSeven l ++ [remainder l ++ l'] := by
        rw [map_row_append, drop_append_rows, ← hseven, List.take_length]

theorem remainder_append : remainder (l ++ l') = [] := by
  rw [← List.length_eq_zero_iff, length_remainder, List.length_append]
  rw [length_remainder] at h
  omega

end

section

variable (h : (remainder l).length + l'.length < 7)
include h

theorem length_append_div_of_lt : (l ++ l').length / 7 = l.length / 7 := by
  rw [length_remainder] at h
  rw [List.length_append]
  omega

theorem rowsOfSeven_append_of_lt : rowsOfSeven (l ++ l') = rowsOfSeven l := by
  rw [rowsOfSeven, length_append_div_of_lt h, map_row_append]

theorem remainder_append_of_lt : remainder (l ++ l') = remainder l ++ l' := by
  rw [remainder, length_append_div_of_lt h, drop_append_rows]

end

/-- Cutting whole weeks into rows loses no cell. -/
theorem flatten_rowsOfSeven (h : l.length = 7 * n) : (rowsOfSeven l).flatten = l := by
  induction n generalizing l with
  | zero =>
      rw [rowsOfSeven_of_length_lt (by omega), List.flatten_nil,
        List.eq_nil_of_length_eq_zero h]
  | succ n ih =>
      -- The last seven cells are the last row.
      have hbefore : (l.take (7 * n)).length = 7 * n := by
        rw [List.length_take]
        omega
      have hlast : remainder (l.take (7 * n)) = [] := by
        rw [← List.length_eq_zero_iff, length_remainder, hbefore]
        omega
      have hseven : (remainder (l.take (7 * n))).length + (l.drop (7 * n)).length = 7 := by
        rw [hlast, List.length_drop, List.length_nil]
        omega
      calc (rowsOfSeven l).flatten
          = (rowsOfSeven (l.take (7 * n) ++ l.drop (7 * n))).flatten := by
            rw [List.take_append_drop]
        _ = (rowsOfSeven (l.take (7 * n))).flatten ++ l.drop (7 * n) := by
            rw [rowsOfSeven_append hseven, hlast, List.nil_append, List.flatten_append,
              List.flatten_singleton]
        _ = l := by rw [ih hbefore, List.take_append_drop]

/-! ## Cells -/

/-- The empty cells after the days fill the last week and are fewer than seven. -/
theorem exists_cells_eq (before : Nat) (days : List α) :
    ∃ after weeks, after < 7 ∧ (cells before days).length = 7 * weeks ∧
      before + days.length + after = 7 * weeks ∧
      cells before days =
        List.replicate before none ++ days.map some ++ List.replicate after none := by
  refine ⟨(7 - (before + days.length) % 7) % 7, (before + days.length + 6) / 7, by omega, ?_,
    by omega, rfl⟩
  unfold cells
  simp only [List.length_append, List.length_replicate, List.length_map]
  omega

theorem getElem?_cells (before n : Nat) (days : List α) (hn : n < days.length) :
    (cells before days)[before + n]? = some (some days[n]) := by
  unfold cells
  rw [List.append_assoc, List.getElem?_append_right (by simp), List.length_replicate,
    Nat.add_sub_cancel_left, List.getElem?_append_left (by simpa using hn), List.getElem?_map,
    List.getElem?_eq_getElem hn]
  rfl

/-- A cell with a day is as far from the first cell of the days as its day from the first. -/
theorem exists_of_getElem?_cells (h : (cells before days)[n]? = some (some a)) :
    ∃ p, n = before + p ∧ days[p]? = some a := by
  unfold cells at h
  rw [List.append_assoc] at h
  by_cases hn : n < before
  · rw [List.getElem?_append_left (by simpa using hn), List.getElem?_replicate, if_pos hn] at h
    cases h
  · refine ⟨n - before, by omega, ?_⟩
    rw [List.getElem?_append_right (by simpa using hn), List.length_replicate] at h
    by_cases hp : n - before < days.length
    · rw [List.getElem?_append_left (by simpa using hp), List.getElem?_map] at h
      cases hday : days[n - before]? with
      | none =>
          rw [hday] at h
          cases h
      | some b =>
          rw [hday] at h
          cases h
          rfl
    · rw [List.getElem?_append_right (by simpa using hp), List.getElem?_replicate] at h
      split at h <;> cases h

/-- Every row has a first day, with empty cells before it. -/
theorem exists_first_of_mem_rows {row : List (Option α)} (hbefore : before < 7)
    (hdays : days ≠ []) (hrow : row ∈ rowsOfSeven (cells before days)) :
    ∃ a ∈ days, ∃ blanks rest, row = blanks ++ some a :: rest ∧ ∀ cell ∈ blanks, cell = none := by
  obtain ⟨after, weeks, hafter, hlength, hsum, -⟩ := exists_cells_eq before days
  obtain ⟨i, hi, rfl⟩ := mem_rowsOfSeven_iff.mp hrow
  have hpos := List.length_pos_iff.mpr hdays
  -- The first row has the first day, and each later row has a day in its first cell.
  obtain ⟨k, p, hk, hp, hplace⟩ : ∃ k p, k < 7 ∧ p < days.length ∧ 7 * i + k = before + p :=
    ⟨max before (7 * i) - 7 * i, max before (7 * i) - before, by omega, by omega, by omega⟩
  have hday : some days[p] ∈ ((cells before days).drop (7 * i)).take 7 := by
    apply List.mem_of_getElem? (i := k)
    rw [getElem?_row hk, hplace, getElem?_cells before p days hp]
  cases hfind : (((cells before days).drop (7 * i)).take 7).findSome? id with
  | none => cases List.findSome?_eq_none_iff.mp hfind _ hday
  | some a =>
      obtain ⟨blanks, cell, rest, hsplit, hcell, hblank⟩ := List.findSome?_eq_some_iff.mp hfind
      cases (show cell = some a from hcell)
      have hmem : some a ∈ cells before days := by
        apply List.mem_of_mem_drop (i := 7 * i)
        apply List.mem_of_mem_take (i := 7)
        rw [hsplit]
        exact List.mem_append_right _ List.mem_cons_self
      obtain ⟨n, hn⟩ := List.mem_iff_getElem?.mp hmem
      obtain ⟨p, -, hp⟩ := exists_of_getElem?_cells hn
      exact ⟨a, List.mem_of_getElem? hp, blanks, rest, hsplit, hblank⟩

/-! ## The layout -/

/-- A day that is laid out, with its weeks. -/
structure TaggedDay where
  date : EraDate
  tag : RowTag

/-- The tag of a row of cells: that of its first day. -/
def tagIn (row : List (Option TaggedDay)) : Option RowTag := (row.findSome? id).map TaggedDay.tag

def datesIn (row : List (Option TaggedDay)) : List (Option EraDate) :=
  row.map (Option.map TaggedDay.date)

def gridRow (row : List (Option TaggedDay)) : GridRow := ⟨tagIn row, datesIn row⟩

theorem tagIn_append_cons {blanks rest : List (Option TaggedDay)} {g : TaggedDay}
    (h : ∀ cell ∈ blanks, cell = none) : tagIn (blanks ++ some g :: rest) = some g.tag := by
  have hfirst : (blanks ++ some g :: rest).findSome? id = some g := by
    rw [List.findSome?_eq_some_iff]
    exact ⟨blanks, some g, rest, rfl, rfl, h⟩
  rw [tagIn, hfirst]
  rfl

theorem exists_of_getElem?_datesIn {row : List (Option TaggedDay)} {x : EraDate}
    (h : (datesIn row)[k]? = some (some x)) : ∃ g, row[k]? = some (some g) ∧ g.date = x := by
  rw [datesIn, List.getElem?_map] at h
  obtain ⟨cell, hcell, hx⟩ := Option.map_eq_some_iff.mp h
  obtain ⟨g, rfl, hg⟩ := Option.map_eq_some_iff.mp hx
  exact ⟨g, hcell, hg⟩

/-- A row has the tag of its first day, whichever day comes next. -/
theorem tagIn_concat (row : List (Option TaggedDay)) (g : TaggedDay) :
    tagIn (row ++ [some g]) = some ((tagIn row).getD g.tag) := by
  unfold tagIn
  rw [List.findSome?_append]
  cases row.findSome? id <;> rfl

theorem tagIn_append_replicate (row : List (Option TaggedDay)) (n : Nat) :
    tagIn (row ++ List.replicate n none) = tagIn row := by
  have hnone : (List.replicate n (none : Option TaggedDay)).findSome? id = none := by
    rw [List.findSome?_eq_none_iff]
    intro cell hcell
    exact List.eq_of_mem_replicate hcell
  unfold tagIn
  rw [List.findSome?_append, hnone, Option.or_none]

namespace Layout

variable {s : Layout} {tag : RowTag} {d : EraDate} {l : List (Option TaggedDay)}

/-! ### One step -/

theorem add_of_length_eq (h : s.week.length = 6) :
    s.add tag d =
      { rows := s.rows ++ [⟨some tag, s.week ++ [some d]⟩], tag := none, week := [] } := by
  unfold add
  exact if_pos (by simp [h])

theorem add_of_length_lt (h : s.week.length < 6) :
    s.add tag d = { s with tag := some tag, week := s.week ++ [some d] } := by
  have hlength : (s.week ++ [some d]).length ≠ 7 := by
    rw [List.length_append, List.length_singleton]
    omega
  unfold add
  exact if_neg hlength

theorem finish_of_eq_nil (h : s.week = []) : s.finish = s.rows := by
  unfold finish
  exact if_pos (by simp [h])

theorem finish_of_ne_nil (h : s.week ≠ []) :
    s.finish = s.rows ++ [⟨s.tag, filled s.week⟩] := by
  unfold finish
  exact if_neg (by simp [h])

theorem filled_eq (week : List (Option EraDate)) :
    filled week = week ++ List.replicate (7 - week.length) none := by
  -- By the rounds of the loop, each of which adds one of the empty cells.
  induction week using filled.induct with
  | case1 week hlt ih =>
      have hmore : 7 - week.length = (7 - (week ++ [none]).length) + 1 := by
        rw [List.length_append, List.length_singleton]
        omega
      rw [filled, if_pos hlt, ih, hmore, List.replicate_succ, List.append_assoc,
        List.singleton_append]
  | case2 week hfull =>
      have hnone : 7 - week.length = 0 := by omega
      rw [filled, if_neg hfull, hnone, List.replicate_zero, List.append_nil]

/-! ### The closed form -/

/-- What is laid out after some cells. -/
def ofCells (l : List (Option TaggedDay)) : Layout where
  rows := (rowsOfSeven l).map gridRow
  tag := tagIn (remainder l)
  week := datesIn (remainder l)

/-- A day with its weeks is added under the tag that the row has, if there is one. -/
def addTagged (s : Layout) (g : TaggedDay) : Layout := s.add (s.tag.getD g.tag) g.date

theorem length_week_ofCells : (ofCells l).week.length = (remainder l).length := by
  unfold ofCells datesIn
  rw [List.length_map]

theorem start_eq_ofCells (h : before < 7) :
    start before = ofCells (List.replicate before none) := by
  have hshort : (List.replicate before (none : Option TaggedDay)).length < 7 := by
    rwa [List.length_replicate]
  have htag := tagIn_append_replicate [] before
  rw [List.nil_append] at htag
  unfold ofCells
  rw [rowsOfSeven_of_length_lt hshort, remainder_of_length_lt hshort, htag]
  simp [start, datesIn, tagIn]

/-- One more day leads to the layout after one more cell. -/
theorem addTagged_ofCells (l : List (Option TaggedDay)) (g : TaggedDay) :
    (ofCells l).addTagged g = ofCells (l ++ [some g]) := by
  have hlt : (remainder l).length < 7 := by
    rw [length_remainder]
    omega
  have hweek : datesIn (remainder l ++ [some g]) = datesIn (remainder l) ++ [some g.date] :=
    List.map_append
  unfold addTagged
  -- The row under way is complete with this cell, or it has one cell more.
  by_cases hsix : (remainder l).length = 6
  · have hfull : (remainder l).length + [some g].length = 7 := by
      rw [hsix, List.length_singleton]
    rw [add_of_length_eq (length_week_ofCells.trans hsix)]
    unfold ofCells
    rw [rowsOfSeven_append hfull, remainder_append hfull, List.map_append, List.map_singleton,
      gridRow, tagIn_concat, hweek]
    rfl
  · have hmore : (remainder l).length + [some g].length < 7 := by
      rw [List.length_singleton]
      omega
    rw [add_of_length_lt (by rw [length_week_ofCells]; omega)]
    unfold ofCells
    rw [rowsOfSeven_append_of_lt hmore, remainder_append_of_lt hmore, tagIn_concat, hweek]

/-- A run of days leads to the layout after as many more cells. -/
theorem foldl_addTagged_ofCells (l : List (Option TaggedDay)) (days : List TaggedDay) :
    days.foldl addTagged (ofCells l) = ofCells (l ++ days.map some) := by
  induction days generalizing l with
  | nil => rw [List.map_nil, List.append_nil, List.foldl_nil]
  | cons g days ih =>
      rw [List.foldl_cons, addTagged_ofCells, ih, List.append_assoc, List.map_cons,
        List.singleton_append]

/-- The empty cells at the end fill the last row. -/
theorem finish_ofCells (l : List (Option TaggedDay)) :
    (ofCells l).finish =
      (rowsOfSeven (l ++ List.replicate ((7 - l.length % 7) % 7) none)).map gridRow := by
  have hlength := length_remainder (l := l)
  -- A row under way is filled up. Without one the last day has completed its row.
  by_cases hempty : remainder l = []
  · have hwhole : l.length % 7 = 0 := by rw [← hlength, hempty, List.length_nil]
    have hnil : (ofCells l).week = [] := by
      show datesIn (remainder l) = []
      rw [hempty]
      rfl
    rw [finish_of_eq_nil hnil, hwhole]
    simp [ofCells]
  · have hpos := List.length_pos_iff.mpr hempty
    have hafter : (7 - l.length % 7) % 7 = 7 - (remainder l).length := by omega
    have hne : (ofCells l).week ≠ [] := by
      rw [← List.length_pos_iff, length_week_ofCells]
      exact hpos
    have hseven : (remainder l).length +
        (List.replicate (7 - (remainder l).length) (none : Option TaggedDay)).length = 7 := by
      rw [List.length_replicate]
      omega
    have hfilled : filled (datesIn (remainder l)) =
        datesIn (remainder l ++ List.replicate (7 - (remainder l).length) none) := by
      rw [filled_eq]
      simp [datesIn]
    rw [finish_of_ne_nil hne, hafter, rowsOfSeven_append hseven, List.map_append,
      List.map_singleton, gridRow, tagIn_append_replicate, ← hfilled]
    rfl

/-- The rows of a month: the days with empty cells on either side, in rows of seven. -/
theorem finish_foldl_addTagged (hbefore : before < 7) (days : List TaggedDay) :
    (days.foldl addTagged (start before)).finish =
      (rowsOfSeven (cells before days)).map gridRow := by
  rw [start_eq_ofCells hbefore, foldl_addTagged_ofCells, finish_ofCells]
  simp [cells]

end Layout

end EraChronology.MonthGrid
