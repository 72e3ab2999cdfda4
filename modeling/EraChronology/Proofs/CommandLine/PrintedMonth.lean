import EraChronology.Proofs.CommandLine.OwnWeeks
import EraChronology.Proofs.Report.MonthGrid

set_option autoImplicit false

/-! # Printing a month

A month is printed by asking a registered calendar for the grid of the month and printing it under
a title. Of a month all of whose days have dates the grid shows the month, and all of it is printed
or nothing: it is the length of the years that decides (`run_printMonth`).
-/

namespace EraChronology.CommandLine

open Command

variable {a : Almanac} {c : Calendar} {name : String} {y m : Int}

def printed (ss : List String) : String := String.join (ss.map (· ++ "\n"))

theorem run_lines (ss : List String) : Command.run (lines ss) = ⟨printed ss, .exit 0⟩ := by
  have hout : ∀ out, (ExceptT.run (lines ss)).run out = (.ok (), out ++ printed ss) := by
    induction ss with
    | nil => exact fun out => congrArg (Prod.mk _) String.append_empty.symm
    | cons s ss ih =>
        intro out
        calc (ExceptT.run (lines (s :: ss))).run out
            = (ExceptT.run (lines ss)).run (out ++ s ++ "\n") := rfl
          _ = (.ok (), out ++ s ++ "\n" ++ printed ss) := ih _
          _ = (.ok (), out ++ printed (s :: ss)) := by
              unfold printed
              rw [List.map_cons, String.join_cons, String.append_assoc, String.append_assoc,
                String.append_assoc]
  unfold Command.run
  rw [hout, String.empty_append]

section

variable (h : c.table.IsOrdered) (ha : a.calendar? name = .ok c) (hm : 1 ≤ m ∧ m ≤ 12)
  (hresolve : ∀ d, 1 ≤ d ∧ d ≤ Gregorian.monthLength y m →
    ∃ x, c.resolve (midnight (Gregorian.dayNumber y m d)) 0 = .ok x)
include h ha hm hresolve

/-- A year that is too long keeps the whole grid from being printed. -/
theorem run_printMonth_of_long (hlong : ¬ MonthGrid.YearsAreWritable c y m) :
    Command.run (printMonth a name y m) = ⟨"", .failure (.input .longNumber)⟩ := by
  unfold printMonth
  rw [ha, attempt_ok_bind]
  by_cases hdays : ∀ d ∈ MonthGrid.dayNumbers 1 (Gregorian.monthLength y m),
      Text.isWritable (c.dateOfDay (Gregorian.dayNumber y m d) 0).year = true
  · -- All days have their cells, but there is no title.
    obtain ⟨days, hgrid, -⟩ := MonthGrid.exists_ofMonth_eq h hm hresolve hdays
    have hyear : Text.isWritable y = false := Bool.eq_false_iff.mpr fun hy => hlong ⟨hy, hdays⟩
    have htitle : MonthGrid.title name y m = .error (.input .longNumber) := by
      unfold MonthGrid.title writing requireWritable
      rw [List.all_cons, hyear]
      rfl
    rw [hgrid, attempt_ok_bind, htitle]
    rfl
  · simp only [not_forall] at hdays
    obtain ⟨d, hd, hyear⟩ := hdays
    rw [MonthGrid.ofMonth_of_long h hm hresolve hd hyear]
    rfl

theorem run_printMonth_of_writable (hyears : MonthGrid.YearsAreWritable c y m) :
    ∃ (grid : MonthGrid) (title : String), MonthGrid.title name y m = .ok title ∧
      grid.Shows c y m ∧
      Command.run (printMonth a name y m) = ⟨printed (grid.lines title), .exit 0⟩ := by
  obtain ⟨days, hgrid, hdays⟩ := MonthGrid.exists_ofMonth_eq h hm hresolve hyears.2
  have hmonth : Text.isWritable m = true := Calendar.isWritable_of_lt_hundred (by omega)
  have htitle : MonthGrid.title name y m =
      .ok s!"{name} Gregorian month  {y}-{Text.zeroPad 2 m}" := by
    unfold MonthGrid.title writing requireWritable
    rw [List.all_cons, List.all_cons, hyears.1, hmonth]
    rfl
  refine ⟨_, _, htitle, MonthGrid.shows_ofDays h hm hdays, ?_⟩
  unfold printMonth
  rw [ha, attempt_ok_bind, hgrid, attempt_ok_bind, htitle, attempt_ok_bind, run_lines]

end

/-- Of a month all of whose days have a date in a registered calendar a grid is printed that shows
the month, unless the year of the month or the year of the era of one of its days is too long to be
written. In that case nothing is printed. -/
theorem run_printMonth {spec : Spec} (hc : Calendar.ofSpec? spec = .ok c)
    (ha : a.calendar? name = .ok c) (hm : 1 ≤ m ∧ m ≤ 12)
    (hresolve : ∀ d, 1 ≤ d ∧ d ≤ Gregorian.monthLength y m →
      ∃ x, c.resolve (midnight (Gregorian.dayNumber y m d)) 0 = .ok x) :
    (MonthGrid.YearsAreWritable c y m →
      ∃ (grid : MonthGrid) (title : String), MonthGrid.title name y m = .ok title ∧
        grid.Shows c y m ∧
        Command.run (printMonth a name y m) = ⟨printed (grid.lines title), .exit 0⟩) ∧
    (¬ MonthGrid.YearsAreWritable c y m →
      Command.run (printMonth a name y m) = ⟨"", .failure (.input .longNumber)⟩) := by
  have h := Calendar.isOrdered_of_ofSpec? hc
  exact ⟨run_printMonth_of_writable h ha hm hresolve, run_printMonth_of_long h ha hm hresolve⟩

/-- The last days of Showa and the first days of Heisei. -/
theorem run_printMonth_showa :
    ∃ a c, Almanac.builtIn? "" = .ok a ∧ Calendar.ofSpec? Spec.japanese = .ok c ∧
      a.calendar? "japanese" = .ok c ∧ ∃ grid : MonthGrid, grid.Shows c 1989 1 ∧
        Command.run (printMonth a "japanese" 1989 1) =
          ⟨printed (grid.lines "japanese Gregorian month  1989-01"), .exit 0⟩ := by
  obtain ⟨a, ha⟩ : ∃ a, Almanac.builtIn? "" = .ok a := ⟨_, rfl⟩
  obtain ⟨c, hc⟩ : ∃ c, Calendar.ofSpec? Spec.japanese = .ok c := ⟨_, rfl⟩
  have hfound : a.calendar? "japanese" = .ok c := by
    cases ha
    cases hc
    rfl
  have hyears : MonthGrid.YearsAreWritable c 1989 1 := by
    cases hc
    unfold MonthGrid.YearsAreWritable
    decide +kernel
  obtain ⟨grid, title, htitle, hgrid, hrun⟩ := (run_printMonth hc hfound (by decide) fun d hd =>
    MonthGrid.exists_resolve_of_mem_month (by cases hc; decide) (by cases hc; decide) hd).1 hyears
  have hwritten : MonthGrid.title "japanese" 1989 1 = .ok "japanese Gregorian month  1989-01" :=
    eq_ok_of_toOption (by decide +kernel)
  cases htitle.symm.trans hwritten
  exact ⟨a, c, ha, hc, hfound, grid, hgrid, hrun⟩

/-- The era of this calendar begins too long ago for its years to be written. Of January 2001 no
grid is printed, although every day of it has a date. -/
theorem run_printMonth_longYears :
    ∃ a c, Calendar.ofSpec? Calendar.longYears = .ok c ∧ a.calendar? "long" = .ok c ∧
      (∀ d, 1 ≤ d ∧ d ≤ Gregorian.monthLength 2001 1 →
        ∃ x, c.resolve (midnight (Gregorian.dayNumber 2001 1 d)) 0 = .ok x) ∧
      Command.run (printMonth a "long" 2001 1) = ⟨"", .failure (.input .longNumber)⟩ := by
  obtain ⟨c, hc⟩ : ∃ c, Calendar.ofSpec? Calendar.longYears = .ok c := ⟨_, rfl⟩
  have hfirst : c.table.Represents (midnight (Gregorian.dayNumber 2001 1 1)) := by
    cases hc
    decide +kernel
  have hlast : c.table.Represents
      (midnight (Gregorian.dayNumber 2001 1 (Gregorian.monthLength 2001 1))) := by
    cases hc
    decide +kernel
  have hresolve : ∀ d, 1 ≤ d ∧ d ≤ Gregorian.monthLength 2001 1 →
      ∃ x, c.resolve (midnight (Gregorian.dayNumber 2001 1 d)) 0 = .ok x :=
    fun d hd => MonthGrid.exists_resolve_of_mem_month hfirst hlast hd
  have hlong : ¬ Text.isWritable (c.dateOfDay (Gregorian.dayNumber 2001 1 1) 0).year = true := by
    cases hc
    decide +kernel
  have hfound :
      Almanac.calendar? ⟨some (.ofList [("long", c)]), .standard⟩ "long" = .ok c := rfl
  refine ⟨_, c, hc, hfound, hresolve, ?_⟩
  refine run_printMonth_of_long (Calendar.isOrdered_of_ofSpec? hc) hfound (by decide) hresolve ?_
  exact fun hyears => hlong (hyears.2 1 (by decide))

end EraChronology.CommandLine
