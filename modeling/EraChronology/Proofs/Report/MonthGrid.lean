import EraChronology.Proofs.Calendar.LargestWeek
import EraChronology.Proofs.Calendar.Resolving
import EraChronology.Proofs.Report.Columns
import EraChronology.Proofs.Report.MonthRows
import EraChronology.Proofs.WeekRule.Counting

set_option autoImplicit false

/-! # Month grids

The grid of a month has the days of the month row by row (`MonthGrid.Shows`). They fall into the
columns of their days of the week, whatever day weeks start on, because the empty cells before the
first day are as many as its place in the week and each day is one cell further on. Eras play no
part in this: they only give each day its own date, with its own weeks.

Each day of the month extends the layout by one cell (`IsTaggedDay.addDay_eq`), so the layout of
the whole month has a closed form (`exists_ofMonth_eq`). Years are written as they are, so there is
a grid exactly when no year in it is too long (`ofMonth_of_long`). All other numbers have two digits
at most: no year has more than 54 weeks (`WeekRule.maxWeekOfYear_mem`), and no month more than six.
-/

namespace EraChronology

/-! ## Weeks of two digits -/

namespace WeekRule

variable (w : WeekRule) {s : Span} {j : Int}

/-- A month of 31 days touches at most six weeks. -/
theorem weekOfMonth_mem (hs : s.Holds j) (hshort : s.naturalLast ≤ s.naturalFirst + 30) :
    0 ≤ w.weekOfMonth s j ∧ w.weekOfMonth s j ≤ 6 := by
  have hfirst := w.firstWeek_mem s.anchor
  have hnonneg := w.weekNumber_nonneg (Int.le_trans hs.anchor_le hs.first_le)
  have hbegun := hs.naturalFirst_le
  have hend := Int.le_trans hs.le_last hs.last_le
  have hle : w.weekNumber s.anchor j ≤ 6 := by
    unfold weekNumber
    omega
  simp only [weekOfMonth]
  split <;> omega

end WeekRule

namespace Calendar

variable {c : Calendar} {e : Era} {x : EraDate} {s : Span} {n v : Int}

theorem maxWeekOfYear_mem (h : c.table.IsOrdered) (he : e ∈ c.table.eras)
    (hs : c.yearSpan e n = .ok s) :
    1 ≤ c.weeks.maxWeekOfYear s ∧ c.weeks.maxWeekOfYear s ≤ 54 := by
  obtain ⟨hfirst, hlast⟩ := natural_yearSpan h he hs
  obtain ⟨hanchor, -, hend⟩ := within_yearSpan h he hs
  have heve := Gregorian.newYearsEve_eq (e.absoluteYear n)
  have hadd := Gregorian.newYear_add_one (e.absoluteYear n)
  have hlength := Gregorian.yearLength_mem (e.absoluteYear n)
  exact c.weeks.maxWeekOfYear_mem (by omega)

theorem weekOfYear_mem (h : c.table.IsOrdered) (hx : c.IsDate x)
    (hv : c.get x .weekOfYear = .ok v) : 0 ≤ v ∧ v < 100 := by
  have he := hx.era_mem h
  obtain ⟨s, hs, hholds, -, -⟩ := exists_yearSpan_holds h hx
  obtain ⟨p, hp, -⟩ := exists_yearSpan h he (x.year - 1)
  have hnonneg := c.weeks.weekOfYear_nonneg hholds.le_last
  have hle := c.weeks.weekOfYear_le_maxWeekOfYear hholds.le_last
  have hsame := maxWeekOfYear_mem h he hs
  have hprevious := maxWeekOfYear_mem h he hp
  by_cases hzero : c.weeks.weekOfYear s x.dayNumber = 0
  · rw [get_weekOfYear_of_zero hs hzero hp] at hv
    cases hv
    omega
  · rw [get_weekOfYear hs (by omega)] at hv
    cases hv
    omega

theorem weekOfMonth_mem (h : c.table.IsOrdered) (hx : c.IsDate x)
    (hv : c.get x .weekOfMonth = .ok v) : 0 ≤ v ∧ v < 100 := by
  obtain ⟨s, hs, hholds, -, -⟩ := exists_monthSpan_holds h hx
  obtain ⟨hfirst, hlast⟩ := natural_monthSpan h (hx.era_mem h) (hx.month_mem h) hs
  have hlength := Gregorian.monthLength_mem (x.era.absoluteYear x.year) x.month
  rw [Gregorian.dayNumber_eq_add, ← hfirst] at hlast
  have hmem := c.weeks.weekOfMonth_mem hholds (by omega)
  simp only [get, weekOfMonth, hs, bind, Except.bind] at hv
  cases hv
  omega

theorem day_mem (h : c.table.IsOrdered) (hx : c.IsDate x) : 0 ≤ x.day ∧ x.day < 100 := by
  obtain ⟨-, hone, hle⟩ := hx.isValid h
  have hlength := Gregorian.monthLength_mem x.gregorian.year x.gregorian.month
  have hday : x.gregorian.day = x.day := rfl
  omega

end Calendar

/-! ## What a grid shows -/

namespace MonthGrid

open Text

structure RowShows (c : Calendar) (row : GridRow) (top bottom : String) : Prop where
  /-- An empty cell is blank. -/
  blank : ∀ k : Nat, row.cells[k]? = some none →
    column k top = padRight 6 "" ∧ column k bottom = padRight 6 ""
  /-- A day stands in the column of its day of the week. -/
  day : ∀ (k : Nat) (x : EraDate), row.cells[k]? = some (some x) →
    column k (heading c.weeks.firstDay) = padRight 6 (shortDayName x.dayOfWeek) ∧
      column k top = padRight 6 (padNumber 2 x.day) ∧
      column k bottom = (cellText (some x)).2
  /-- The weeks of the first day stand in the margin. -/
  tag : ∃ blanks x rest v w, row.cells = blanks ++ some x :: rest ∧
    (∀ cell ∈ blanks, cell = none) ∧
    c.get x .weekOfYear = .ok v ∧ c.get x .weekOfMonth = .ok w ∧
    margin top = padNumber 2 v ++ " " ++ padNumber 2 w ++ "  "

/-- The grid shows month `m` of year `y` in the calendar `c`. -/
structure Shows (grid : MonthGrid) (c : Calendar) (y m : Int) : Prop where
  firstDayOfWeek : grid.firstDayOfWeek = c.weeks.firstDay
  length_row : ∀ row ∈ grid.rows, row.cells.length = 7
  /-- Row by row there are some empty cells, the days of the month in order, and some empty cells
  again. -/
  cells : ∃ before days after, before < 7 ∧ after < 7 ∧
    grid.rows.flatMap GridRow.cells =
      List.replicate before none ++ days.map some ++ List.replicate after none ∧
    List.Forall₂
      (fun d (x : EraDate) =>
        c.resolve (midnight (Gregorian.dayNumber y m d)) 0 = .ok x ∧ x.day = d)
      (dayNumbers 1 (Gregorian.monthLength y m)) days
  lines : ∀ row ∈ grid.rows, ∃ top bottom, rowLines row = [top, bottom] ∧ RowShows c row top bottom

/-- No year in the grid of a month is too long to be written. -/
def YearsAreWritable (c : Calendar) (y m : Int) : Prop :=
  isWritable y = true ∧ ∀ d ∈ dayNumbers 1 (Gregorian.monthLength y m),
    isWritable (c.dateOfDay (Gregorian.dayNumber y m d) 0).year = true

variable {c : Calendar} {g : TaggedDay} {days : List TaggedDay} {d j y m : Int}

/-! ## Days -/

theorem exists_forall₂ {α β : Type} {R : α → β → Prop} {xs : List α} (h : ∀ x ∈ xs, ∃ y, R x y) :
    ∃ ys, List.Forall₂ R xs ys := by
  induction xs with
  | nil => exact ⟨[], .nil⟩
  | cons x xs ih =>
      obtain ⟨y, hy⟩ := h x (by simp)
      obtain ⟨ys, hys⟩ := ih fun x' hx' => h x' (by simp [hx'])
      exact ⟨y :: ys, .cons hy hys⟩

theorem mem_dayNumbers_iff {first length : Int} :
    d ∈ dayNumbers first length ↔ first ≤ d ∧ d < first + length := by
  unfold dayNumbers
  rw [List.mem_map]
  constructor
  · rintro ⟨i, hi, rfl⟩
    rw [List.mem_range] at hi
    omega
  · rintro ⟨hle, hlt⟩
    exact ⟨(d - first).toNat, List.mem_range.mpr (by omega), by omega⟩

theorem dayNumbers_month (y m length : Int) :
    dayNumbers (Gregorian.dayNumber y m 1) length =
      (dayNumbers 1 length).map fun d => Gregorian.dayNumber y m d := by
  unfold dayNumbers
  rw [List.map_map]
  apply List.map_congr_left
  intro i _
  simp only [Function.comp_apply]
  rw [Gregorian.dayNumber_eq_add y m (1 + i)]
  omega

/-- A day with its date at midnight and the weeks of that date. -/
structure IsTaggedDay (c : Calendar) (j : Int) (g : TaggedDay) : Prop where
  resolve : c.resolve (midnight j) 0 = .ok g.date
  weekOfYear : c.get g.date .weekOfYear = .ok g.tag.weekOfYear
  weekOfMonth : c.get g.date .weekOfMonth = .ok g.tag.weekOfMonth

/-- All days of a month have dates when the first and the last are in range. -/
theorem exists_resolve_of_mem_month
    (hfirst : c.table.Represents (midnight (Gregorian.dayNumber y m 1)))
    (hlast : c.table.Represents
      (midnight (Gregorian.dayNumber y m (Gregorian.monthLength y m))))
    (hd : 1 ≤ d ∧ d ≤ Gregorian.monthLength y m) :
    ∃ x, c.resolve (midnight (Gregorian.dayNumber y m d)) 0 = .ok x := by
  rw [Gregorian.dayNumber_eq_add] at hlast
  rw [Gregorian.dayNumber_eq_add]
  exact Calendar.exists_resolve_midnight hfirst hlast (by omega) (by omega)

theorem exists_isTaggedDay (h : c.table.IsOrdered) (hx : ∃ x, c.resolve (midnight j) 0 = .ok x) :
    ∃ g, IsTaggedDay c j g := by
  obtain ⟨x, hx⟩ := hx
  obtain ⟨hrep, rfl⟩ := Calendar.dateOfDay_of_resolve_midnight hx
  have hdate := Calendar.isDate_dateOfDay h hrep (show IsTimeOfDay 0 by decide)
  obtain ⟨v, hv⟩ := Calendar.exists_get_eq_ok h hdate .weekOfYear
  obtain ⟨w, hw⟩ := Calendar.exists_get_eq_ok h hdate .weekOfMonth
  exact ⟨⟨c.dateOfDay j 0, ⟨v, w⟩⟩, hx, hv, hw⟩

theorem IsTaggedDay.isDate (h : c.table.IsOrdered) (hg : IsTaggedDay c j g) :
    c.IsDate g.date := by
  obtain ⟨hrep, hdate⟩ := Calendar.dateOfDay_of_resolve_midnight hg.resolve
  exact hdate ▸ Calendar.isDate_dateOfDay h hrep (by decide)

theorem IsTaggedDay.two_digits (h : c.table.IsOrdered) (hg : IsTaggedDay c j g) :
    (0 ≤ g.tag.weekOfYear ∧ g.tag.weekOfYear < 100) ∧
      (0 ≤ g.tag.weekOfMonth ∧ g.tag.weekOfMonth < 100) ∧
      (0 ≤ g.date.day ∧ g.date.day < 100) :=
  ⟨Calendar.weekOfYear_mem h (hg.isDate h) hg.weekOfYear,
    Calendar.weekOfMonth_mem h (hg.isDate h) hg.weekOfMonth, Calendar.day_mem h (hg.isDate h)⟩

theorem IsTaggedDay.tagOf_eq (h : c.table.IsOrdered) (hg : IsTaggedDay c j g) :
    Layout.tagOf c g.date = .ok g.tag := by
  obtain ⟨hyear, hmonth, -⟩ := hg.two_digits h
  have hv := hg.weekOfYear
  have hw := hg.weekOfMonth
  simp only [Calendar.get] at hv hw
  simp only [Layout.tagOf, hv, hw, requireWritable, List.all_cons, List.all_nil,
    Calendar.isWritable_of_lt_hundred hyear, Calendar.isWritable_of_lt_hundred hmonth, bind,
    Except.bind]
  rfl

theorem IsTaggedDay.tagFor_eq (h : c.table.IsOrdered) (hg : IsTaggedDay c j g) (s : Layout) :
    s.tagFor c g.date = .ok (s.tag.getD g.tag) := by
  unfold Layout.tagFor
  cases s.tag with
  | none => exact hg.tagOf_eq h
  | some tag => rfl

/-- A day is laid out after any others if its year can be written. -/
theorem IsTaggedDay.addDay_eq (h : c.table.IsOrdered) (hg : IsTaggedDay c j g) (s : Layout) :
    s.addDay c j =
      if isWritable g.date.year then .ok (s.addTagged g) else .error (.input .longNumber) := by
  have hday := Calendar.isWritable_of_lt_hundred (hg.two_digits h).2.2
  unfold Layout.addDay
  simp only [hg.resolve, hg.tagFor_eq h, requireWritable, List.all_cons, List.all_nil, hday,
    Bool.true_and, Bool.and_true, bind, Except.bind]
  cases isWritable g.date.year <;> rfl

/-! ## The grid of a month -/

def AreDays (c : Calendar) (y m : Int) (days : List TaggedDay) : Prop :=
  List.Forall₂ (fun d g => IsTaggedDay c (Gregorian.dayNumber y m d) g)
    (dayNumbers 1 (Gregorian.monthLength y m)) days

theorem AreDays.map_date (hdays : AreDays c y m days) :
    days.map TaggedDay.date =
      (dayNumbers 1 (Gregorian.monthLength y m)).map
        fun d => c.dateOfDay (Gregorian.dayNumber y m d) 0 := by
  rw [← List.forall₂_eq_eq_eq, List.forall₂_map_left_iff, List.forall₂_map_right_iff]
  exact hdays.flip.imp fun g d hg => (Calendar.dateOfDay_of_resolve_midnight hg.resolve).2.symm

/-- The empty cells before the first day of a month, as many as its place in the week. -/
def cellsBefore (w : WeekRule) (first : Int) : Nat := (w.position first).toNat

theorem cellsBefore_lt (w : WeekRule) (first : Int) : cellsBefore w first < 7 := by
  unfold cellsBefore WeekRule.position
  omega

def ofDays (c : Calendar) (y m : Int) (days : List TaggedDay) : MonthGrid :=
  let before := cellsBefore c.weeks (Gregorian.dayNumber y m 1)
  { firstDayOfWeek := c.weeks.firstDay, rows := (rowsOfSeven (cells before days)).map gridRow }

theorem ofMonth_eq (hm : 1 ≤ m ∧ m ≤ 12) :
    ofMonth c y m =
      (((dayNumbers 1 (Gregorian.monthLength y m)).map (Gregorian.dayNumber y m)).foldlM
          (Layout.addDay c) (.start (cellsBefore c.weeks (Gregorian.dayNumber y m 1)))).map
        fun s => { firstDayOfWeek := c.weeks.firstDay, rows := s.finish } := by
  have hlength : Gregorian.monthLength? y m = some (Gregorian.monthLength y m) := if_pos hm
  unfold ofMonth
  rw [hlength]
  simp only [dayNumbers_month]
  rfl

/-- A run of days is laid out, day by day, if all years can be written. -/
theorem foldlM_addDay (h : c.table.IsOrdered) {js : List Int}
    (hdays : List.Forall₂ (IsTaggedDay c) js days)
    (hyears : ∀ g ∈ days, isWritable g.date.year = true) (s : Layout) :
    js.foldlM (Layout.addDay c) s = .ok (days.foldl Layout.addTagged s) := by
  induction hdays generalizing s with
  | nil => rfl
  | cons hg _ ih =>
      rw [List.foldlM_cons, hg.addDay_eq h, if_pos (hyears _ List.mem_cons_self)]
      exact ih (fun g hmem => hyears g (List.mem_cons_of_mem _ hmem)) _

/-- The first year that is too long ends the layout, whatever was laid out before. -/
theorem foldlM_addDay_of_long (h : c.table.IsOrdered) {js : List Int}
    (hdays : List.Forall₂ (IsTaggedDay c) js days)
    (hlong : ∃ g ∈ days, ¬ isWritable g.date.year = true) (s : Layout) :
    js.foldlM (Layout.addDay c) s = .error (.input .longNumber) := by
  induction hdays generalizing s with
  | nil =>
      obtain ⟨g, hmem, -⟩ := hlong
      cases hmem
  | @cons j g js days hg _ ih =>
      rw [List.foldlM_cons, hg.addDay_eq h]
      -- This day ends the layout, or a later one does.
      by_cases hyear : isWritable g.date.year = true
      · have hlater : ∃ g ∈ days, ¬ isWritable g.date.year = true := by
          obtain ⟨g', hmem, hlong⟩ := hlong
          rcases List.mem_cons.mp hmem with rfl | hmem
          · exact absurd hyear hlong
          · exact ⟨g', hmem, hlong⟩
        rw [if_pos hyear]
        exact ih hlater _
      · rw [if_neg hyear]
        rfl

section

variable (h : c.table.IsOrdered) (hm : 1 ≤ m ∧ m ≤ 12)
  (hresolve : ∀ d, 1 ≤ d ∧ d ≤ Gregorian.monthLength y m →
    ∃ x, c.resolve (midnight (Gregorian.dayNumber y m d)) 0 = .ok x)
include h hresolve

theorem exists_areDays : ∃ days, AreDays c y m days := by
  refine exists_forall₂ fun d hd => ?_
  have hmem := mem_dayNumbers_iff.mp hd
  exact exists_isTaggedDay h (hresolve d (by omega))

include hm

theorem exists_ofMonth_eq (hyears : ∀ d ∈ dayNumbers 1 (Gregorian.monthLength y m),
      isWritable (c.dateOfDay (Gregorian.dayNumber y m d) 0).year = true) :
    ∃ days, ofMonth c y m = .ok (ofDays c y m days) ∧ AreDays c y m days := by
  obtain ⟨days, hdays⟩ := exists_areDays h hresolve
  have hwritable : ∀ x ∈ days.map TaggedDay.date, isWritable x.year = true := by
    rw [hdays.map_date]
    exact List.forall_mem_map.mpr hyears
  have hrows := Layout.finish_foldl_addTagged
    (cellsBefore_lt c.weeks (Gregorian.dayNumber y m 1)) days
  refine ⟨days, ?_, hdays⟩
  rw [ofMonth_eq hm, foldlM_addDay h (List.forall₂_map_left_iff.mpr hdays)
    (List.forall_mem_map.mp hwritable)]
  simp only [Except.map, hrows, ofDays]

theorem ofMonth_of_long {d : Int} (hd : d ∈ dayNumbers 1 (Gregorian.monthLength y m))
    (hlong : ¬ isWritable (c.dateOfDay (Gregorian.dayNumber y m d) 0).year = true) :
    ofMonth c y m = .error (.input .longNumber) := by
  obtain ⟨days, hdays⟩ := exists_areDays h hresolve
  have hmem : c.dateOfDay (Gregorian.dayNumber y m d) 0 ∈ days.map TaggedDay.date := by
    rw [hdays.map_date]
    exact List.mem_map_of_mem hd
  obtain ⟨g, hg, hdate⟩ := List.mem_map.mp hmem
  rw [ofMonth_eq hm, foldlM_addDay_of_long h (List.forall₂_map_left_iff.mpr hdays)
    ⟨g, hg, by rwa [hdate]⟩]
  rfl

end

/-! ## What it shows -/

theorem AreDays.ne_nil (hdays : AreDays c y m days) : days ≠ [] := by
  have hlength := hdays.length_eq
  have hmonth := Gregorian.monthLength_mem y m
  rw [dayNumbers, List.length_map, List.length_range] at hlength
  exact List.ne_nil_of_length_pos (by omega)

theorem AreDays.of_getElem? {p : Nat} (hdays : AreDays c y m days) (hp : days[p]? = some g) :
    IsTaggedDay c (Gregorian.dayNumber y m 1 + p) g := by
  obtain ⟨hlt, rfl⟩ := List.getElem?_eq_some_iff.mp hp
  have hday := hdays.get (i := p) (hdays.length_eq ▸ hlt) hlt
  simp only [dayNumbers, List.get_eq_getElem, List.getElem_map, List.getElem_range] at hday
  rw [Gregorian.dayNumber_eq_add] at hday
  have hplace : 1 + (p : Int) - 1 = p := by omega
  rwa [hplace] at hday

theorem AreDays.of_mem (hdays : AreDays c y m days) (hg : g ∈ days) : ∃ j, IsTaggedDay c j g := by
  obtain ⟨p, hp⟩ := List.mem_iff_getElem?.mp hg
  exact ⟨_, hdays.of_getElem? hp⟩

theorem IsTaggedDay.day_eq (hg : IsTaggedDay c (Gregorian.dayNumber y m d) g)
    (hm : 1 ≤ m ∧ m ≤ 12) (hd : 1 ≤ d ∧ d ≤ Gregorian.monthLength y m) : g.date.day = d := by
  obtain ⟨-, hdate⟩ := Calendar.dateOfDay_of_resolve_midnight hg.resolve
  rw [← hdate]
  show (Gregorian.ofDayNumber (Gregorian.dayNumber y m d)).day = d
  rw [Gregorian.ofDayNumber_of_mem hm hd]

/-- The column of the day `p` days after the first is that of its day of the week. -/
theorem dayOfWeek_of_column {w : WeekRule} {first : Int} {i k p : Nat}
    (hplace : 7 * i + k = cellsBefore w first + p) :
    (w.firstDay - 1 + k) % 7 + 1 = Gregorian.dayOfWeek (first + p) := by
  unfold cellsBefore WeekRule.position Gregorian.dayOfWeek at hplace
  unfold Gregorian.dayOfWeek
  omega

theorem rowShows_of_mem_rows (h : c.table.IsOrdered) (hdays : AreDays c y m days)
    {row : GridRow} (hrow : row ∈ (ofDays c y m days).rows) :
    ∃ top bottom, rowLines row = [top, bottom] ∧ RowShows c row top bottom := by
  obtain ⟨tagged, htagged, rfl⟩ := List.mem_map.mp hrow
  -- The first day of the row gives its tag the width of the margin.
  obtain ⟨g, hmem, blanks, rest, hsplit, hblanks⟩ :=
    exists_first_of_mem_rows (cellsBefore_lt _ _) hdays.ne_nil htagged
  obtain ⟨j, hg⟩ := hdays.of_mem hmem
  obtain ⟨hyear, hmonth, -⟩ := hg.two_digits h
  have htag : tagText (gridRow tagged).tag =
      padNumber 2 g.tag.weekOfYear ++ " " ++ padNumber 2 g.tag.weekOfMonth ++ "  " := by
    show tagText (tagIn tagged) = _
    rw [hsplit, tagIn_append_cons hblanks]
    rfl
  have hwidth : (tagText (gridRow tagged).tag).length = 7 := by
    rw [htag]
    simp only [String.length_append, length_padNumber_two hyear, length_padNumber_two hmonth]
    rfl
  obtain ⟨top, bottom, hlines, hmargin, hcolumn⟩ := exists_rowLines hwidth
  refine ⟨top, bottom, hlines, ⟨?_, ?_, ?_⟩⟩
  · intro k hk
    obtain ⟨htop, hbottom⟩ := hcolumn k none hk
    exact ⟨htop, hbottom⟩
  · -- A cell is as far from the first day as its day, so it stands under its day of the week.
    intro k x hk
    obtain ⟨htop, hbottom⟩ := hcolumn k (some x) hk
    obtain ⟨g, hg, rfl⟩ := exists_of_getElem?_datesIn hk
    have hseven : k < 7 := by
      rw [← length_of_mem_rowsOfSeven htagged]
      exact (List.getElem?_eq_some_iff.mp hg).1
    obtain ⟨i, -, rfl⟩ := mem_rowsOfSeven_iff.mp htagged
    rw [getElem?_row hseven] at hg
    obtain ⟨p, hplace, hp⟩ := exists_of_getElem?_cells hg
    have hday := hdays.of_getElem? hp
    obtain ⟨-, hdate⟩ := Calendar.dateOfDay_of_resolve_midnight hday.resolve
    refine ⟨?_, ?_, hbottom⟩
    · rw [column_heading _ hseven, dayOfWeek_of_column hplace, ← hdate, EraDate.dayOfWeek,
        Calendar.dayNumber_dateOfDay]
    · rw [htop]
      exact fit_eq_padRight (by rw [length_padNumber_two (hday.two_digits h).2.2]; decide)
  · refine ⟨datesIn blanks, g.date, datesIn rest, _, _, ?_, ?_, hg.weekOfYear, hg.weekOfMonth,
      hmargin.trans htag⟩
    · show datesIn tagged = _
      rw [hsplit]
      simp [datesIn]
    · intro cell hcell
      obtain ⟨blank, hblank, rfl⟩ := List.mem_map.mp hcell
      rw [hblanks blank hblank]
      rfl

theorem shows_ofDays (h : c.table.IsOrdered) (hm : 1 ≤ m ∧ m ≤ 12) (hdays : AreDays c y m days) :
    (ofDays c y m days).Shows c y m where
  firstDayOfWeek := rfl
  length_row row hrow := by
    obtain ⟨tagged, htagged, rfl⟩ := List.mem_map.mp hrow
    show (datesIn tagged).length = 7
    rw [datesIn, List.length_map, length_of_mem_rowsOfSeven htagged]
  cells := by
    let before := cellsBefore c.weeks (Gregorian.dayNumber y m 1)
    obtain ⟨after, weeks, hafter, hlength, -, hcells⟩ := exists_cells_eq before days
    have hdates : (ofDays c y m days).rows.flatMap GridRow.cells =
        List.replicate before none ++ (days.map TaggedDay.date).map some ++
          List.replicate after none :=
      calc (ofDays c y m days).rows.flatMap GridRow.cells
          = ((rowsOfSeven (cells before days)).map gridRow).flatMap GridRow.cells := rfl
        _ = datesIn (rowsOfSeven (cells before days)).flatten := by
            rw [List.flatMap_map, datesIn, List.map_flatten]
            rfl
        _ = datesIn (List.replicate before none ++ days.map some ++ List.replicate after none) := by
            rw [flatten_rowsOfSeven hlength, hcells]
        _ = _ := by simp [datesIn]
    refine ⟨before, _, after, cellsBefore_lt _ _, hafter, hdates, ?_⟩
    rw [List.forall₂_map_right_iff]
    refine ((List.forall₂_and_left _ _).mpr ⟨fun _ hd => hd, hdays⟩).imp ?_
    rintro d g ⟨hd, hg⟩
    have hmem := mem_dayNumbers_iff.mp hd
    exact ⟨hg.resolve, hg.day_eq hm (by omega)⟩
  lines _ hrow := rowShows_of_mem_rows h hdays hrow

end MonthGrid

end EraChronology
